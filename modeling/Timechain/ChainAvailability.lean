import Timechain.ChainRounds

/-!
# Elections depend on who is available

The members that wait for a shard are sorted whenever some arrive, so that
the list of a network does not depend on the order in which they came.
Members that go offline leave a sorted list sorted, and an election takes
its shards off the front: one chunk of the list for each. Only members
whose shard is refused are put back at the end. `Room` is what the loop of
`on_initialize` keeps so that this does not happen: the bucket of the block
counts this block's elections and nothing else.
-/

namespace Timechain

namespace Chain

/-! ## Sorted lists -/

/-- Sorted as by `sort_by(|a, b| a.cmp(b).reverse())`. -/
def Descending (l : List AccountId) : Prop := l.Pairwise fun a b => b.toList ≤ a.toList

instance Descending.decidable (l : List AccountId) : Decidable (Descending l) :=
  inferInstanceAs (Decidable (l.Pairwise fun a b => b.toList ≤ a.toList))

/-- The lists of all networks are sorted. -/
def Ordered (e : ElectionsStore) : Prop := ∀ network, Descending (e.unassigned.getD network [])

section Lists

variable {e : ElectionsStore} {l l' : List AccountId}

theorem sortMembers_descending (l : List AccountId) : Descending (Elections.sortMembers l) := by
  have htotal : Std.Total fun a b : AccountId => b.toList ≤ a.toList :=
    ⟨fun a b => List.le_total b.toList a.toList⟩
  have htrans : IsTrans AccountId fun a b => b.toList ≤ a.toList :=
    ⟨fun _ _ _ hab hbc => List.le_trans hbc hab⟩
  exact List.pairwise_insertionSort _ l

/-- There is one way to sort a list. -/
theorem Descending.eq_of_perm (h : Descending l) (h' : Descending l') (hperm : l.Perm l') :
    l = l' := by
  refine hperm.eq_of_pairwise (fun a b _ _ hab hba => ?_) h h'
  exact Vector.toList_inj.mp (List.le_antisymm hba hab)

theorem ordered_genesis : Ordered State.genesis.elections := fun _ => List.Pairwise.nil

theorem Ordered.mutate (h : Ordered e) {network : NetworkId}
    {f : List AccountId → List AccountId} (hf : Descending (f (e.unassigned.getD network []))) :
    Ordered (Elections.mutateUnassigned e network f) := by
  intro n
  rw [Elections.mutateUnassigned, StorageMap.getD_insert]
  split
  · exact hf
  · exact h n

end Lists

/-! ## Members come and go -/

section Calls

variable {cfg : Config} {networks : Networks} {i : Input} {s s' : State}

theorem shardOffline_ordered (h : Ordered s.elections) (group : NetworkId × List AccountId) :
    Ordered (Elections.shardOffline s group).elections :=
  h.mutate (sortMembers_descending _)

theorem foldl_shardOffline_ordered (groups : List (NetworkId × List AccountId))
    (h : Ordered s.elections) : Ordered (groups.foldl Elections.shardOffline s).elections := by
  induction groups generalizing s with
  | nil => exact h
  | cons group groups ih => exact ih (shardOffline_ordered h group)

theorem memberOnline_ordered (s : State) (a : AccountId) (network : NetworkId)
    (h : Ordered s.elections) : Ordered (Elections.memberOnline s a network).elections := by
  simp only [Elections.memberOnline]
  split
  · exact h.mutate (sortMembers_descending _)
  · exact h

theorem foldlM_takeOffline_elections {shards : List ShardId} {acc acc' : State × Groups}
    (h : shards.foldlM (Shards.takeOffline cfg networks) acc = some acc') :
    acc'.1.elections = acc.1.elections := by
  induction shards generalizing acc with
  | nil =>
      cases h
      rfl
  | cons shard shards ih =>
      obtain ⟨acc₁, h₁, h⟩ := Option.bind_eq_some_iff.mp h
      exact (ih h).trans (takeOffline_vacates h₁).elections

theorem removeShardsOffline_ordered {shards : List ShardId}
    (h : Shards.removeShardsOffline s cfg networks shards = some s') (hs : Ordered s.elections) :
    Ordered s'.elections := by
  obtain ⟨⟨s₁, updates⟩, h₁, h⟩ := Option.bind_eq_some_iff.mp h
  have hs₁ : s₁.elections = s.elections := foldlM_takeOffline_elections h₁
  cases h
  refine foldl_shardOffline_ordered updates.toList ?_
  rw [hs₁]
  exact hs

theorem timeoutDkgs_ordered {n : BlockNumber}
    (h : Shards.timeoutDkgs s cfg networks n = some s') (hs : Ordered s.elections) :
    Ordered s'.elections := by
  obtain ⟨s₁, h₁, rfl⟩ := Option.map_eq_some_iff.mp h
  split at h₁
  · cases h₁
    exact hs
  · have hremoved : Ordered s₁.elections := removeShardsOffline_ordered h₁ hs
    exact hremoved

/-- Members that leave a list do not disturb it. -/
theorem membersOffline_ordered {group : NetworkId × List AccountId}
    (h : Members.membersOffline cfg networks s group = some s') (hs : Ordered s.elections) :
    Ordered s'.elections := by
  have hleft : Ordered (Elections.mutateUnassigned s.elections group.1 fun unassigned =>
      unassigned.filter fun m => !group.2.contains m) :=
    hs.mutate ((hs group.1).filter _)
  simp only [Members.membersOffline, Elections.membersOffline, Shards.membersOffline] at h
  split at h
  · cases h
    exact hleft
  · exact removeShardsOffline_ordered h hleft

theorem foldlM_membersOffline_ordered {groups : List (NetworkId × List AccountId)}
    (h : groups.foldlM (Members.membersOffline cfg networks) s = some s')
    (hs : Ordered s.elections) : Ordered s'.elections := by
  induction groups generalizing s with
  | nil =>
      cases h
      exact hs
  | cons group groups ih =>
      obtain ⟨s₁, h₁, h⟩ := Option.bind_eq_some_iff.mp h
      exact ih h (membersOffline_ordered h₁ hs)

theorem membersOnInitialize_ordered {n : BlockNumber}
    (h : Members.onInitialize s cfg networks n = some s') (hs : Ordered s.elections) :
    Ordered s'.elections := by
  simp only [Members.onInitialize] at h
  split at h
  · cases h
  · split at h
    · obtain ⟨s₁, h₁, h⟩ := Option.bind_eq_some_iff.mp h
      cases h
      have hs₁ : Ordered s₁.elections := foldlM_membersOffline_ordered h₁ hs
      exact hs₁
    · cases h
      exact hs

theorem executeSendHeartbeat_ordered {a : AccountId}
    (h : Members.executeSendHeartbeat s a = .ok s') (hs : Ordered s.elections) :
    Ordered s'.elections := by
  obtain ⟨-, -, h⟩ := bind_ok h
  obtain ⟨network, -, h⟩ := bind_ok h
  cases h
  by_cases honline : Members.isMemberOnline s.members a = true
  · rw [honline]
    exact hs
  · rw [Bool.not_eq_true] at honline
    rw [honline]
    have hs₁ : Ordered (Members.memberOnline s a network).elections :=
      memberOnline_ordered _ a network hs
    exact hs₁

theorem executeReady_elections {a : AccountId} {shard : ShardId}
    (h : Shards.executeReady s cfg networks a shard = .ok (some s')) :
    s'.elections = s.elections := by
  obtain ⟨-, -, h⟩ := bind_ok h
  obtain ⟨network, -, h⟩ := bind_ok h
  obtain ⟨commitment, -, h⟩ := bind_ok h
  have h := Except.ok.inj h
  simp only [Shards.openShard] at h
  split at h
  · obtain ⟨key, -, rfl⟩ := Option.map_eq_some_iff.mp h
    rfl
  · cases h
    rfl

theorem runHook_ordered {hook : Hook} (hne : hook ≠ .elections)
    (h : runHook s cfg networks hook = some s') (hs : Ordered s.elections) :
    Ordered s'.elections := by
  cases hook with
  | members => exact membersOnInitialize_ordered h hs
  | shards => exact timeoutDkgs_ordered h hs
  | elections => exact absurd rfl hne
  | tasks =>
      obtain ⟨tasks, -, rfl⟩ := Option.map_eq_some_iff.mp h
      exact hs

/-- Outside the elections the lists stay sorted. -/
theorem exec_ordered_of_ne (hne : i.call ≠ .onInitialize .elections)
    (h : exec cfg s i = some s') (hs : Ordered s.elections) : Ordered s'.elections := by
  obtain ⟨networks, call⟩ := i
  cases exec_ends h with
  | fails => exact hs
  | newBlock => exact hs
  | onInitialize _ hrun =>
      refine runHook_ordered (fun heq => hne ?_) hrun hs
      rw [heq]
  | registerMember => exact hs
  | unregisterMember _ hok =>
      obtain ⟨members, rfl⟩ := executeUnregisterMember_ok hok
      exact hs
  | sendHeartbeat hok => exact executeSendHeartbeat_ordered hok hs
  | commit hok =>
      obtain ⟨shards, rfl⟩ := executeCommit_ok hok
      exact hs
  | ready hok =>
      rw [executeReady_elections hok]
      exact hs
  | forceShardOffline _ hok => exact removeShardsOffline_ordered hok hs
  | tasks _ hok =>
      obtain ⟨tasks, -, rfl⟩ := Option.map_eq_some_iff.mp hok
      exact hs

end Calls

/-! ## An election -/

namespace Elections

/-- The first `n` chunks of `size` members. -/
def chunksOf (size : Nat) : (n : Nat) → List AccountId → List (List AccountId)
  | 0, _ => []
  | n + 1, l => l.take size :: chunksOf size n (l.drop size)

end Elections

/-- The shards created so far, by network and members. -/
def ShardsStore.elected (sh : ShardsStore) : List (NetworkId × List AccountId) :=
  sh.createdShards.map fun c => (c.network, c.members)

section Chunks

variable {size : Nat} {l : List AccountId}

theorem length_chunksOf (size n : Nat) (l : List AccountId) :
    (Elections.chunksOf size n l).length = n := by
  induction n generalizing l with
  | zero => rfl
  | succ n ih => rw [Elections.chunksOf, List.length_cons, ih]

theorem length_of_mem_chunksOf {n : Nat} (h : n * size ≤ l.length) :
    ∀ c ∈ Elections.chunksOf size n l, c.length = size := by
  induction n generalizing l with
  | zero =>
      intro c hc
      cases hc
  | succ n ih =>
      rw [Nat.succ_mul] at h
      intro c hc
      rw [Elections.chunksOf] at hc
      rcases List.mem_cons.mp hc with rfl | hc
      · rw [List.length_take]
        omega
      · refine ih ?_ c hc
        rw [List.length_drop]
        omega

theorem flatten_chunksOf (size n : Nat) (l : List AccountId) :
    (Elections.chunksOf size n l).flatten = l.take (n * size) := by
  induction n generalizing l with
  | zero => rw [Nat.zero_mul, List.take_zero, Elections.chunksOf, List.flatten_nil]
  | succ n ih =>
      rw [Elections.chunksOf, List.flatten_cons, ih, Nat.succ_mul, Nat.add_comm, List.take_add]

theorem chunksOf_take (size n : Nat) (l : List AccountId) :
    Elections.chunksOf size n (l.take (n * size)) = Elections.chunksOf size n l := by
  induction n generalizing l with
  | zero => rfl
  | succ n ih =>
      rw [Elections.chunksOf, Elections.chunksOf, List.take_take, List.drop_take,
        Nat.min_eq_left (Nat.le_mul_of_pos_left size n.succ_pos), Nat.succ_mul,
        Nat.add_sub_cancel, ih]

end Chunks

/-- What electing for a network comes to when nobody is turned away: chunk
by chunk, the front of the list becomes shards. -/
structure Divides (networks : Networks) (network : NetworkId) (maxElections : Nat) (s s' : State)
    (elected : Nat) : Prop where
  count : elected = min ((s.elections.unassigned.getD network []).length % 2 ^ 32
    / (networks.shardSize network).toNat) maxElections
  list : s'.elections.unassigned.getD network []
    = (s.elections.unassigned.getD network []).drop (elected * (networks.shardSize network).toNat)
  others : ∀ n, n ≠ network →
    s'.elections.unassigned.getD n [] = s.elections.unassigned.getD n []
  created : s'.shards.elected = s.shards.elected
    ++ (Elections.chunksOf (networks.shardSize network).toNat elected
      (s.elections.unassigned.getD network [])).map (Prod.mk network)

section Elect

variable {cfg : Config} {networks : Networks} {s s' t : State} {network : NetworkId}
  {maxElections elected : Nat}

theorem createShard_elected {block : BlockNumber} {threshold : Nat} {sh sh' : ShardsStore}
    {as : List AccountId} (h : Shards.createShard cfg block network threshold sh as = some sh') :
    sh'.elected = sh.elected ++ [(network, as)] := by
  rw [ShardsStore.elected, createShard_created h, List.map_append, List.map_singleton]
  rfl

/-- If nobody is turned away, every chunk is a shard. -/
theorem createShards_elected {block : BlockNumber} {threshold size chunks : Nat}
    {members : List AccountId} {sh : ShardsStore} (num : Nat)
    (h : none ∉ Elections.createResults (Shards.createShard cfg block network threshold) size
      chunks members sh) :
    (Elections.createShards (Shards.createShard cfg block network threshold) size chunks members
      sh num).1.elected
        = sh.elected ++ (Elections.chunksOf size chunks members).map (Prod.mk network) := by
  induction chunks generalizing members sh num with
  | zero => exact (List.append_nil _).symm
  | succ chunks ih =>
      rw [Elections.createResults] at h
      rw [Elections.createShards, Elections.chunksOf]
      cases hcreate : Shards.createShard cfg block network threshold sh (members.take size) with
      | none =>
          rw [hcreate] at h
          exact absurd List.mem_cons_self h
      | some sh' =>
          rw [hcreate] at h
          dsimp only
          rw [ih (num + 1) (fun hno => h (List.mem_cons_of_mem _ hno)),
            createShard_elected hcreate, List.append_assoc, List.map_cons, List.singleton_append]

theorem tryElectShards_divides
    (h : Elections.tryElectShards s cfg networks network maxElections = some (s', elected))
    (hroom : s.shards.dkgTimeoutCounter.getD (satAdd 32 s.blockNumber cfg.dkgTimeout) 0
      + maxElections ≤ cfg.maxElectionsPerBlock) :
    Divides networks network maxElections s s' elected := by
  obtain ⟨hnone, -⟩ := @tryElectShards_room cfg networks s s' network maxElections elected hroom
  simp only [Elections.tryElectResults] at hnone
  simp only [Elections.tryElectShards] at h
  generalize hU : s.elections.unassigned.getD network [] = unassigned at h hnone
  generalize hsz : (networks.shardSize network).toNat = size at h hnone
  generalize hk : min (unassigned.length % 2 ^ 32 / size) maxElections = chunks at h hnone
  split at h
  · cases h
  · have hcreated := createShards_elected 0 hnone
    have hall := createShards_all 0 hnone
    rw [List.drop_eq_nil_of_le (List.length_take_le ..), Nat.zero_add] at hall
    rw [chunksOf_take] at hcreated
    generalize Elections.createShards (Shards.createShard cfg s.blockNumber network
      (networks.shardThreshold network).toNat) size chunks (unassigned.take (chunks * size))
      s.shards 0 = created at h hcreated hall
    obtain ⟨shards, unelected, num⟩ := created
    obtain ⟨rfl, rfl⟩ := Prod.mk.injEq .. |>.mp hall
    cases h
    refine ⟨?_, ?_, fun n hn => ?_, ?_⟩
    · rw [hU, hsz]
      exact hk.symm
    · dsimp only [Elections.mutateUnassigned]
      rw [StorageMap.getD_insert, if_pos rfl, List.append_nil, hU, hsz]
    · dsimp only [Elections.mutateUnassigned]
      rw [StorageMap.getD_insert, if_neg hn]
    · rw [hU, hsz]
      exact hcreated

/-- The chunks are as many as the list has. -/
theorem Divides.le (h : Divides networks network maxElections s s' elected) :
    elected * (networks.shardSize network).toNat
      ≤ (s.elections.unassigned.getD network []).length :=
  calc elected * (networks.shardSize network).toNat
    _ ≤ (s.elections.unassigned.getD network []).length % 2 ^ 32
          / (networks.shardSize network).toNat * (networks.shardSize network).toNat :=
        Nat.mul_le_mul_right _ (h.count ▸ Nat.min_le_left _ _)
    _ ≤ (s.elections.unassigned.getD network []).length % 2 ^ 32 := Nat.div_mul_le_self _ _
    _ ≤ (s.elections.unassigned.getD network []).length := Nat.mod_le _ _

/-- What is left of a sorted list is sorted. -/
theorem Divides.ordered (h : Divides networks network maxElections s s' elected)
    (hs : Ordered s.elections) : Ordered s'.elections := by
  intro n
  by_cases hn : n = network
  · rw [hn, h.list]
    exact (hs network).sublist (List.drop_sublist _ _)
  · rw [h.others n hn]
    exact hs n

end Elect

/-! ## The elections of a block -/

/-- The bucket of the block counts its elections and nothing else. -/
structure Room (cfg : Config) (s : State) (numElections : Nat) : Prop where
  le : numElections ≤ cfg.maxElectionsPerBlock
  bucket : s.shards.dkgTimeoutCounter.getD (satAdd 32 s.blockNumber cfg.dkgTimeout) 0
    = numElections

namespace Elections

/-- The loop of `on_initialize` calls `try_elect_shards` in the state `s₁`
for a network and a number of shards. -/
inductive Calls (cfg : Config) (networks : Networks) (counter0 : Nat)
    (s₁ : State) (network : NetworkId) (maxElections : Nat) : State → Nat → Nat → Prop
  | now {netCounter numElections} : numElections < cfg.maxElectionsPerBlock →
      networks.getNetworks[netCounter]? = some network →
      maxElections = cfg.maxElectionsPerBlock - numElections →
      Calls cfg networks counter0 s₁ network maxElections s₁ netCounter numElections
  | later {s s' netCounter numElections first elected} :
      numElections < cfg.maxElectionsPerBlock →
      networks.getNetworks[netCounter]? = some first →
      tryElectShards s cfg networks first (cfg.maxElectionsPerBlock - numElections)
        = some (s', elected) →
      (netCounter + 1) % networks.getNetworks.length ≠ counter0 →
      Calls cfg networks counter0 s₁ network maxElections s'
        ((netCounter + 1) % networks.getNetworks.length) (satAdd 32 numElections elected) →
      Calls cfg networks counter0 s₁ network maxElections s netCounter numElections

end Elections

section Loop

variable {cfg : Config} {networks : Networks} {s s' t : State} {network : NetworkId}
  {counter0 netCounter numElections maxElections elected fuel : Nat}

/-- The networks visited are those that a call is made for. -/
theorem Elections.Visits.mem_iff {visited : List NetworkId} {result : State × Nat × Bool}
    (h : Elections.Visits cfg networks counter0 s netCounter numElections visited result) :
    network ∈ visited ↔ ∃ s₁ maxElections,
      Elections.Calls cfg networks counter0 s₁ network maxElections s netCounter numElections := by
  induction h with
  | full hnum =>
      constructor
      · intro hmem
        cases hmem
      · rintro ⟨s₁, m, hcall⟩
        cases hcall with
        | now hlt => exact absurd hlt hnum
        | later hlt => exact absurd hlt hnum
  | missing _ hnet =>
      constructor
      · intro hmem
        cases hmem
      · rintro ⟨s₁, m, hcall⟩
        cases hcall with
        | now _ hget => exact absurd (hget.symm.trans hnet) (Option.some_ne_none _)
        | later _ hget => exact absurd (hget.symm.trans hnet) (Option.some_ne_none _)
  | last hnum hnet _ hround =>
      rw [List.mem_singleton]
      constructor
      · rintro rfl
        exact ⟨_, _, .now hnum hnet rfl⟩
      · rintro ⟨s₁, m, hcall⟩
        cases hcall with
        | now _ hget => exact Option.some.inj (hget.symm.trans hnet)
        | later _ _ _ hne => exact absurd hround hne
  | next hnum hnet htry hround _ ih =>
      rw [List.mem_cons, ih]
      constructor
      · rintro (heq | ⟨s₁, m, hcall⟩)
        · exact ⟨_, _, .now hnum (heq ▸ hnet) rfl⟩
        · exact ⟨s₁, m, .later hnum hnet htry hround hcall⟩
      · rintro ⟨s₁, m, hcall⟩
        cases hcall with
        | now _ hget => exact Or.inl (Option.some.inj (hget.symm.trans hnet))
        | later _ hget htry' _ hcall =>
            obtain rfl := Option.some.inj (hget.symm.trans hnet)
            obtain ⟨rfl, rfl⟩ := Prod.mk.injEq .. |>.mp (Option.some.inj (htry'.symm.trans htry))
            exact Or.inr ⟨s₁, m, hcall⟩

theorem Room.divides (h : Room cfg s numElections)
    (htry : Elections.tryElectShards s cfg networks network
      (cfg.maxElectionsPerBlock - numElections) = some (s', elected)) :
    Divides networks network (cfg.maxElectionsPerBlock - numElections) s s' elected := by
  refine tryElectShards_divides htry ?_
  rw [h.bucket, Nat.add_sub_cancel' h.le]

theorem Room.next (h : Room cfg s numElections)
    (htry : Elections.tryElectShards s cfg networks network
      (cfg.maxElectionsPerBlock - numElections) = some (s', elected)) :
    Room cfg s' (satAdd 32 numElections elected) := by
  have hroom : s.shards.dkgTimeoutCounter.getD (satAdd 32 s.blockNumber cfg.dkgTimeout) 0
      + (cfg.maxElectionsPerBlock - numElections) ≤ cfg.maxElectionsPerBlock := by
    rw [h.bucket, Nat.add_sub_cancel' h.le]
  obtain ⟨hblock, hle, hbucket⟩ := (tryElectShards_room hroom).2 htry
  have hsum : numElections + elected ≤ cfg.maxElectionsPerBlock := by
    have := h.le
    omega
  rw [satAdd_of_lt (Nat.lt_of_le_of_lt hsum cfg.maxElectionsPerBlock_lt)]
  refine ⟨hsum, ?_⟩
  rw [hblock, hbucket, h.bucket]

/-- Every call has room for the shards it may create. -/
theorem Elections.Calls.room {s₁ : State}
    (h : Elections.Calls cfg networks counter0 s₁ network maxElections s netCounter numElections)
    (hs : Room cfg s numElections) :
    ∃ numElections', Room cfg s₁ numElections' ∧
      maxElections = cfg.maxElectionsPerBlock - numElections' := by
  induction h with
  | now _ _ hmax => exact ⟨_, hs, hmax⟩
  | later _ _ htry _ _ ih => exact ih (hs.next htry)

theorem electNetworks_ordered {result : State × Nat × Bool} (hs : Room cfg s numElections)
    (h : Elections.electNetworks cfg networks counter0 fuel s netCounter numElections
      = some result) (hsorted : Ordered s.elections) : Ordered result.1.elections := by
  induction fuel generalizing s netCounter numElections with
  | zero =>
      cases h
      exact hsorted
  | succ fuel ih =>
      rw [Elections.electNetworks] at h
      split at h
      · split at h
        · cases h
          exact hsorted
        · obtain ⟨⟨s₁, elected⟩, htry, h⟩ := Option.bind_eq_some_iff.mp h
          have hs₁ := (hs.divides htry).ordered hsorted
          dsimp only at h
          split at h
          · cases h
            exact hs₁
          · exact ih (hs.next htry) h hs₁
      · cases h
        exact hsorted

theorem onInitialize_ordered (hs : Room cfg s 0)
    (h : Elections.onInitialize s cfg networks = some s') (hsorted : Ordered s.elections) :
    Ordered s'.elections := by
  obtain ⟨⟨s₁, netCounter, all⟩, h₁, h⟩ := Option.bind_eq_some_iff.mp h
  have hs₁ : Ordered s₁.elections := electNetworks_ordered hs h₁ hsorted
  dsimp only at h
  split at h
  · cases h
    exact hs₁
  · cases h
    exact hs₁

end Loop

/-! ## Two states -/

/-- The same members wait, in the same order. -/
def SameLists (s t : State) : Prop :=
  ∀ n, s.elections.unassigned.getD n [] = t.elections.unassigned.getD n []

/-- The same shards are created from `s` to `s'` and from `t` to `t'`. -/
def SameShards (s s' t t' : State) : Prop :=
  ∃ shards, s'.shards.elected = s.shards.elected ++ shards ∧
    t'.shards.elected = t.shards.elected ++ shards

section Same

variable {cfg : Config} {networks : Networks} {s s' t : State} {network : NetworkId}
  {counter0 netCounter numElections elected fuel : Nat}

theorem SameShards.refl (s t : State) : SameShards s s t t :=
  ⟨[], (List.append_nil _).symm, (List.append_nil _).symm⟩

theorem SameShards.trans {s₁ s₂ t₁ t₂ : State} (h : SameShards s s₁ t t₁)
    (h' : SameShards s₁ s₂ t₁ t₂) : SameShards s s₂ t t₂ := by
  obtain ⟨shards, hs, ht⟩ := h
  obtain ⟨shards', hs', ht'⟩ := h'
  refine ⟨shards ++ shards', ?_, ?_⟩
  · rw [hs', hs, List.append_assoc]
  · rw [ht', ht, List.append_assoc]

/-- A call finds the same shards in the same lists. -/
theorem tryElectShards_same (hs : Room cfg s numElections) (ht : Room cfg t numElections)
    (hlists : SameLists s t)
    (h : Elections.tryElectShards s cfg networks network
      (cfg.maxElectionsPerBlock - numElections) = some (s', elected)) :
    ∃ t', Elections.tryElectShards t cfg networks network
        (cfg.maxElectionsPerBlock - numElections) = some (t', elected) ∧
      SameLists s' t' ∧ SameShards s s' t t' := by
  have hsize : 0 < (networks.shardSize network).toNat := by
    rw [Nat.pos_iff_ne_zero]
    intro hzero
    simp only [Elections.tryElectShards, if_pos hzero] at h
    cases h
  obtain ⟨t', elected', htry⟩ := @tryElectShards_isSome cfg networks t network hsize
    (cfg.maxElectionsPerBlock - numElections)
  have hsplit := hs.divides h
  have hsplit' := ht.divides htry
  obtain rfl : elected = elected' := by rw [hsplit.count, hsplit'.count, hlists network]
  refine ⟨t', htry, fun n => ?_, _, hsplit.created, ?_⟩
  · by_cases hn : n = network
    · rw [hn, hsplit.list, hsplit'.list, hlists network]
    · rw [hsplit.others n hn, hsplit'.others n hn, hlists n]
  · rw [hsplit'.created, hlists network]

theorem electNetworks_same {all : Bool} {netCounter' : Nat} (hs : Room cfg s numElections)
    (ht : Room cfg t numElections) (hlists : SameLists s t)
    (h : Elections.electNetworks cfg networks counter0 fuel s netCounter numElections
      = some (s', netCounter', all)) :
    ∃ t', Elections.electNetworks cfg networks counter0 fuel t netCounter numElections
        = some (t', netCounter', all) ∧ SameLists s' t' ∧ SameShards s s' t t' := by
  induction fuel generalizing s t netCounter numElections with
  | zero =>
      cases h
      exact ⟨t, rfl, hlists, .refl _ t⟩
  | succ fuel ih =>
      rw [Elections.electNetworks] at h ⊢
      split at h
      · next hnum =>
          rw [if_pos hnum]
          split at h
          · cases h
            exact ⟨t, rfl, hlists, .refl _ t⟩
          · next network _ =>
              obtain ⟨⟨s₁, elected⟩, htry, h⟩ := Option.bind_eq_some_iff.mp h
              obtain ⟨t₁, htry', hlists₁, hshards₁⟩ := tryElectShards_same hs ht hlists htry
              dsimp only at h ⊢
              rw [htry', Option.bind_eq_bind, Option.bind_some]
              split at h
              · next hround =>
                  cases h
                  rw [if_pos hround]
                  exact ⟨t₁, rfl, hlists₁, hshards₁⟩
              · next hround =>
                  obtain ⟨t', helect, hlists', hshards'⟩ :=
                    ih (hs.next htry) (ht.next htry') hlists₁ h
                  rw [if_neg hround]
                  exact ⟨t', helect, hlists', hshards₁.trans hshards'⟩
      · next hnum =>
          cases h
          rw [if_neg hnum]
          exact ⟨t, rfl, hlists, .refl _ t⟩

theorem onInitialize_same (hs : Room cfg s 0) (ht : Room cfg t 0) (hlists : SameLists s t)
    (hcounter : t.elections.networkCounter = s.elections.networkCounter)
    (h : Elections.onInitialize s cfg networks = some s') :
    ∃ t', Elections.onInitialize t cfg networks = some t' ∧ SameLists s' t' ∧
      SameShards s s' t t' := by
  obtain ⟨⟨s₁, netCounter, all⟩, h₁, h⟩ := Option.bind_eq_some_iff.mp h
  obtain ⟨t₁, h₁', hlists₁, hshards₁⟩ := electNetworks_same hs ht hlists h₁
  simp only [Elections.onInitialize, hcounter, h₁', Option.bind_eq_bind, Option.bind_some]
  dsimp only at h
  split at h
  · next hall =>
      cases h
      rw [if_pos hall]
      exact ⟨t₁, rfl, hlists₁, hshards₁⟩
  · next hall =>
      cases h
      rw [if_neg hall]
      exact ⟨_, rfl, hlists₁, hshards₁⟩

end Same

/-! ## Arrivals -/

namespace Elections

/-- The ways into the list of a network. -/
inductive Arrival where
  | memberOnline (member : AccountId) (network : NetworkId)
  | shardOffline (network : NetworkId) (members : List AccountId)

def arrive (s : State) : Arrival → State
  | .memberOnline member network => memberOnline s member network
  | .shardOffline network members => shardOffline s (network, members)

/-- The accounts that get on the list of `network`. -/
def Arrival.accounts (s : State) (network : NetworkId) : Arrival → List AccountId
  | .memberOnline member n =>
      if n = network ∧ Shards.isShardMember s.shards member = false then [member] else []
  | .shardOffline n members => (membersFor network (n, members)).filter (eligible s.members)

/-- The accounts that one arrival after the other brings. -/
def broughtBy (network : NetworkId) : State → List Arrival → List AccountId
  | _, [] => []
  | s, x :: xs => x.accounts s network ++ broughtBy network (arrive s x) xs

end Elections

/-- What arrivals leave alone. -/
structure Arrives (s s' : State) : Prop where
  blockNumber : s'.blockNumber = s.blockNumber
  timeoutCounter : s'.shards.dkgTimeoutCounter = s.shards.dkgTimeoutCounter
  elected : s'.shards.elected = s.shards.elected
  networkCounter : s'.elections.networkCounter = s.elections.networkCounter

section Arrivals

variable {cfg : Config} {s s' : State}

theorem arrive_ordered (hs : Ordered s.elections) (x : Elections.Arrival) :
    Ordered (Elections.arrive s x).elections := by
  cases x with
  | memberOnline a n => exact memberOnline_ordered s a n hs
  | shardOffline n as => exact shardOffline_ordered hs (n, as)

theorem arrive_arrives (s : State) (x : Elections.Arrival) : Arrives s (Elections.arrive s x) := by
  cases x with
  | memberOnline a n =>
      obtain ⟨online, state, hrest⟩ := shardsMemberOnline_rest s.shards a
      simp only [Elections.arrive, Elections.memberOnline]
      split
      · dsimp only
        rw [hrest]
        exact ⟨rfl, rfl, rfl, rfl⟩
      · rw [hrest]
        exact ⟨rfl, rfl, rfl, rfl⟩
  | shardOffline n as => exact ⟨rfl, rfl, rfl, rfl⟩

theorem arrive_perm (s : State) (x : Elections.Arrival) (network : NetworkId) :
    ((Elections.arrive s x).elections.unassigned.getD network []).Perm
      (s.elections.unassigned.getD network [] ++ x.accounts s network) := by
  cases x with
  | memberOnline a n =>
      simp only [Elections.arrive, Elections.memberOnline, Elections.Arrival.accounts]
      cases hmember : Shards.isShardMember s.shards a with
      | true =>
          have hno : ¬(n = network ∧ true = false) := fun hno => Bool.noConfusion hno.2
          rw [if_neg hno, List.append_nil]
          exact List.Perm.refl _
      | false =>
          simp only [Bool.not_false, if_true, and_true, Elections.mutateUnassigned]
          rw [StorageMap.getD_insert]
          by_cases hn : n = network
          · rw [if_pos hn.symm, if_pos hn, hn]
            exact List.perm_insertionSort _ _
          · rw [if_neg (Ne.symm hn), if_neg hn, List.append_nil]
  | shardOffline n as =>
      have hwaiting := (shardOffline_settles s (n, as)).waiting network
      rw [List.flatMap_singleton] at hwaiting
      exact Multiset.coe_eq_coe.mp (hwaiting.trans (Multiset.coe_add _ _))

theorem Arrives.trans {s'' : State} (h : Arrives s s') (h' : Arrives s' s'') : Arrives s s'' where
  blockNumber := h'.blockNumber.trans h.blockNumber
  timeoutCounter := h'.timeoutCounter.trans h.timeoutCounter
  elected := h'.elected.trans h.elected
  networkCounter := h'.networkCounter.trans h.networkCounter

/-- Arrivals one after the other: the list is sorted and has who was on it
and who was brought. -/
theorem foldl_arrive (xs : List Elections.Arrival) (hs : Ordered s.elections) :
    Ordered (xs.foldl Elections.arrive s).elections ∧ Arrives s (xs.foldl Elections.arrive s) ∧
      ∀ network, ((xs.foldl Elections.arrive s).elections.unassigned.getD network []).Perm
        (s.elections.unassigned.getD network [] ++ Elections.broughtBy network s xs) := by
  induction xs generalizing s with
  | nil =>
      refine ⟨hs, ⟨rfl, rfl, rfl, rfl⟩, fun network => ?_⟩
      rw [Elections.broughtBy, List.append_nil]
      exact List.Perm.refl _
  | cons x xs ih =>
      obtain ⟨hsorted, harrives, hperm⟩ := ih (arrive_ordered hs x)
      refine ⟨hsorted, (arrive_arrives s x).trans harrives, fun network => ?_⟩
      rw [Elections.broughtBy, ← List.append_assoc]
      exact (hperm network).trans ((arrive_perm s x network).append_right _)

theorem Room.arrives (h : Room cfg s 0) (hs : Arrives s s') : Room cfg s' 0 := by
  refine ⟨h.le, ?_⟩
  rw [hs.blockNumber, hs.timeoutCounter]
  exact h.bucket

/-- Elections after the same accounts have arrived. -/
theorem onInitialize_arrivals {networks : Networks} {t : State} (hroom : Room cfg s 0)
    (hroom' : Room cfg t 0) (hs : Ordered s.elections) (ht : Ordered t.elections)
    (hcounter : t.elections.networkCounter = s.elections.networkCounter)
    (xs ys : List Elections.Arrival)
    (hperm : ∀ n, (s.elections.unassigned.getD n [] ++ Elections.broughtBy n s xs).Perm
      (t.elections.unassigned.getD n [] ++ Elections.broughtBy n t ys))
    (h : Elections.onInitialize (xs.foldl Elections.arrive s) cfg networks = some s') :
    ∃ t', Elections.onInitialize (ys.foldl Elections.arrive t) cfg networks = some t' ∧
      SameLists s' t' ∧ SameShards s s' t t' := by
  obtain ⟨hxs, hkept, hlist⟩ := foldl_arrive xs hs
  obtain ⟨hys, hkept', hlist'⟩ := foldl_arrive ys ht
  have hlists : SameLists (xs.foldl Elections.arrive s) (ys.foldl Elections.arrive t) := fun n =>
    (hxs n).eq_of_perm (hys n) ((hlist n).trans ((hperm n).trans (hlist' n).symm))
  have hcounter' := (hkept'.networkCounter.trans hcounter).trans hkept.networkCounter.symm
  obtain ⟨t', h', hlists', hshards⟩ :=
    onInitialize_same (hroom.arrives hkept) (hroom'.arrives hkept') hlists hcounter' h
  refine ⟨t', h', hlists', ?_⟩
  rw [SameShards, hkept.elected, hkept'.elected] at hshards
  exact hshards

end Arrivals

/-! ## Runs of the chain -/

section Runs

variable {cfg : Config} {ok : State → Input → Prop} {i : Input} {is : List Input} {s s' : State}

/-- There is room for the elections of a block when they are due. -/
theorem room_of_due (h : Bucketed cfg s) (hdue : Hook.elections ∈ s.dueHooks)
    (hfar : s.blockNumber + cfg.dkgTimeout < 2 ^ 32) :
    Room cfg (opening s (.onInitialize .elections)) 0 := by
  refine ⟨Nat.zero_le _, ?_⟩
  have hempty := h.empty hdue
  rw [← satAdd_of_lt hfar] at hempty
  exact hempty

theorem exec_ordered (hb : Bucketed cfg s) (hexec : exec cfg s i = some s')
    (hfar : s.blockNumber + cfg.dkgTimeout < 2 ^ 32) (hs : Ordered s.elections) :
    Ordered s'.elections := by
  by_cases hcall : i.call = .onInitialize .elections
  · have hdue : Hook.elections ∈ s.dueHooks := by
      by_contra hno
      simp only [exec, hcall, if_neg hno] at hexec
      cases hexec
    exact onInitialize_ordered (room_of_due hb hdue hfar) (exec_hook hcall hexec) hs
  · exact exec_ordered_of_ne hcall hexec hs

theorem run_ordered (h : ChainRun cfg ok is s) (hfar : s.blockNumber + cfg.dkgTimeout < 2 ^ 32) :
    Ordered s.elections := by
  revert hfar
  refine h.invariant (P := fun _ s => s.blockNumber + cfg.dkgTimeout < 2 ^ 32 →
    Ordered s.elections) (fun _ => ordered_genesis) ?_
  intro is s i s' hrun hs _ hexec hfar
  have hle := exec_blockNumber (run_sound hrun) hexec
  have hfar : s.blockNumber + cfg.dkgTimeout < 2 ^ 32 :=
    Nat.lt_of_le_of_lt (Nat.add_le_add_right hle _) hfar
  exact exec_ordered (run_bucketed hrun) hexec hfar (hs hfar)

/-- **Elections depend on who is available, and lose nobody**: as long as
the timers of the block are not past the last block number, the lists are
sorted; the elections of two states whose lists were built from the same
accounts elect the same shards, in whatever order these came; and a call
of `try_elect_shards` divides its list into a chunk for each shard and
what is left. -/
theorem elections_depend_on_available (hrun : ChainRun cfg ok is s)
    (hfar : s.blockNumber + cfg.dkgTimeout < 2 ^ 32) :
    (∀ n, Descending (s.elections.unassigned.getD n [])) ∧
    (∀ {ok' : State → Input → Prop} {is' : List Input} {t : State}, ChainRun cfg ok' is' t →
      t.blockNumber + cfg.dkgTimeout < 2 ^ 32 →
      Hook.elections ∈ s.dueHooks → Hook.elections ∈ t.dueHooks →
      t.elections.networkCounter = s.elections.networkCounter →
      ∀ (xs ys : List Elections.Arrival),
      (∀ n, (s.elections.unassigned.getD n []
          ++ Elections.broughtBy n (opening s (.onInitialize .elections)) xs).Perm
        (t.elections.unassigned.getD n []
          ++ Elections.broughtBy n (opening t (.onInitialize .elections)) ys)) →
      ∀ networks s', Elections.onInitialize
        (xs.foldl Elections.arrive (opening s (.onInitialize .elections))) cfg networks
          = some s' →
      ∃ t', Elections.onInitialize
          (ys.foldl Elections.arrive (opening t (.onInitialize .elections))) cfg networks
            = some t' ∧ SameLists s' t' ∧ SameShards s s' t t') ∧
    (Hook.elections ∈ s.dueHooks → ∀ networks s₁ network maxElections,
      Elections.Calls cfg networks s.elections.networkCounter s₁ network maxElections
        (opening s (.onInitialize .elections)) s.elections.networkCounter 0 →
      ∀ s₂ elected, Elections.tryElectShards s₁ cfg networks network maxElections
        = some (s₂, elected) →
      ∃ chunks : List (List AccountId), chunks.length = elected ∧
        (∀ c ∈ chunks, c.length = (networks.shardSize network).toNat) ∧
        s₁.elections.unassigned.getD network []
          = chunks.flatten ++ s₂.elections.unassigned.getD network [] ∧
        s₂.shards.elected = s₁.shards.elected ++ chunks.map (Prod.mk network)) := by
  have hsorted : Ordered s.elections := run_ordered hrun hfar
  refine ⟨hsorted, ?_, ?_⟩
  · intro ok' is' t hrun' hfar' hdue hdue' hcounter xs ys hperm networks s' h
    have hsorted' : Ordered t.elections := run_ordered hrun' hfar'
    exact onInitialize_arrivals (room_of_due (run_bucketed hrun) hdue hfar)
      (room_of_due (run_bucketed hrun') hdue' hfar') hsorted hsorted' hcounter xs ys hperm h
  · intro hdue networks s₁ network maxElections hcall s₂ elected htry
    obtain ⟨numElections, hroom, rfl⟩ := hcall.room (room_of_due (run_bucketed hrun) hdue hfar)
    have hdivides := hroom.divides htry
    refine ⟨_, length_chunksOf (networks.shardSize network).toNat elected
      (s₁.elections.unassigned.getD network []), length_of_mem_chunksOf hdivides.le, ?_,
      hdivides.created⟩
    rw [flatten_chunksOf, hdivides.list, List.take_append_drop]

def thirdMember : AccountId := Vector.replicate 32 5

/-- Two members come back while a third one waits. -/
def arrivingMembers : List Elections.Arrival :=
  [.memberOnline otherMember 0, .memberOnline thirdMember 0]

def arrivingState (xs : List Elections.Arrival) : State :=
  xs.foldl Elections.arrive (opening (exampleState waitingCalls) (.onInitialize .elections))

theorem broughtBy_arrivingMembers (n : NetworkId) :
    (Elections.broughtBy n (arrivingState []) arrivingMembers).Perm
      (Elections.broughtBy n (arrivingState []) arrivingMembers.reverse) := by
  have hfree : Shards.isShardMember (arrivingState []).shards otherMember = false ∧
      Shards.isShardMember (arrivingState []).shards thirdMember = false ∧
      Shards.isShardMember (arrivingState [.memberOnline otherMember 0]).shards thirdMember
        = false ∧
      Shards.isShardMember (arrivingState [.memberOnline thirdMember 0]).shards otherMember
        = false := by
    decide +kernel
  obtain ⟨h₁, h₂, h₃, h₄⟩ := hfree
  simp only [arrivingState, List.foldl_cons, List.foldl_nil] at h₁ h₂ h₃ h₄ ⊢
  simp only [arrivingMembers, List.reverse_cons, List.reverse_nil, List.nil_append,
    List.cons_append, Elections.broughtBy, Elections.Arrival.accounts, h₁, h₂, h₃, h₄, and_true,
    List.append_nil]
  exact List.perm_append_comm

/-- The three members are elected in the same order, however they came. -/
theorem elections_depend_on_available_arriving :
    ∃ s' t', Elections.onInitialize (arrivingState arrivingMembers) exampleConfig exampleNetworks
        = some s' ∧
      Elections.onInitialize (arrivingState arrivingMembers.reverse) exampleConfig exampleNetworks
        = some t' ∧
      s'.shards.elected = [(0, [thirdMember]), (0, [otherMember]), (0, [exampleMember])] ∧
      t'.shards.elected = s'.shards.elected := by
  have hrun : ChainRun exampleConfig (fun _ _ => True) (waitingCalls.map exampleInput)
      (exampleState waitingCalls) := exampleState_run (fun _ _ _ => trivial) (by decide +kernel)
  have hdue : Hook.elections ∈ (exampleState waitingCalls).dueHooks := by decide +kernel
  have hfar : (exampleState waitingCalls).blockNumber + exampleConfig.dkgTimeout < 2 ^ 32 := by
    decide +kernel
  have helected : (Elections.onInitialize (arrivingState arrivingMembers) exampleConfig
      exampleNetworks).map (fun s => s.shards.elected)
        = some [(0, [thirdMember]), (0, [otherMember]), (0, [exampleMember])] := by
    decide +kernel
  have hnone : (exampleState waitingCalls).shards.elected = [] := by decide +kernel
  obtain ⟨s', hs', hshards⟩ := Option.map_eq_some_iff.mp helected
  obtain ⟨t', ht', -, shards, hsame, hsame'⟩ := (elections_depend_on_available hrun hfar).2.1 hrun
    hfar hdue hdue rfl arrivingMembers arrivingMembers.reverse
    (fun n => (broughtBy_arrivingMembers n).append_left _) exampleNetworks s' hs'
  exact ⟨s', t', hs', ht', hshards, by rw [hsame, hsame', hnone]⟩

/-- Three members wait and one is elected, then none in the next block. -/
def unsortedCalls : List Call :=
  exampleBlock [exampleRegister 0,
    .registerMember .root 0 (.sr25519 otherMember) (Vector.replicate 32 4),
    .registerMember .root 0 (.sr25519 thirdMember) (Vector.replicate 32 6), exampleHeartbeat,
    otherHeartbeat, .sendHeartbeat (.signed thirdMember)] ++
  exampleBlock [exampleHeartbeat, otherHeartbeat, .sendHeartbeat (.signed thirdMember)] ++
  [.newBlock, .onInitialize .members, .onInitialize .shards, .onInitialize .elections]

def unsortedState : State :=
  Run.endState (exec tardyConfig) State.genesis (unsortedCalls.map exampleInput)

/-- The timers of all blocks share a bucket, which is full: the member whose
shard is refused goes to the end of the list. -/
theorem full_bucket_unsorts :
    ChainRun tardyConfig (fun _ _ => True) (unsortedCalls.map exampleInput) unsortedState ∧
    unsortedState.elections.unassigned.getD 0 [] = [exampleMember, otherMember] ∧
    ¬Descending (unsortedState.elections.unassigned.getD 0 []) :=
  ⟨Run.to_endState (fun _ _ _ => trivial) (by decide +kernel), by decide +kernel,
    by decide +kernel⟩

end Runs

end Chain

end Timechain
