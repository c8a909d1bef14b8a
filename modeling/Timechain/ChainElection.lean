import Timechain.ChainPresence

/-!
# Elections and key generation

`try_elect_shards` cuts the list of a network into chunks and creates a
shard for each; the list is written back at the end. The roster of the
loop is therefore that of storage with the list replaced by what is left
of it (`listing`): each round is then one `Roster.elect`. Shard ids do
not repeat as long as their counter does not clamp, which is what
`Numbered` is for.
-/

namespace Timechain

namespace Chain

open Relation (ReflTransGen)

/-- Shard ids are given out in order. -/
structure Numbered (sh : ShardsStore) : Prop where
  counter : sh.shardIdCounter = sh.createdShards.length
  fresh : ∀ x, sh.shardIdCounter ≤ x → sh.shardNetwork.get x = none

/-- The list of `network`, replaced. -/
def listing (e : ElectionsStore) (network : NetworkId) (l : List AccountId) : ElectionsStore :=
  Elections.mutateUnassigned e network fun _ => l

theorem view_listing_waiting (m : MembersStore) (e : ElectionsStore) (sh : ShardsStore)
    (network : NetworkId) (l : List AccountId) :
    (view m (listing e network l) sh).waiting
      = Function.update (view m e sh).waiting network (l : Multiset AccountId) := by
  funext n
  refine (coe_mutateUnassigned ..).trans ?_
  rw [Function.update_apply]
  rfl

theorem view_listing_perm (m : MembersStore) (e : ElectionsStore) (sh : ShardsStore)
    (network : NetworkId) {l l' : List AccountId} (h : l.Perm l') :
    view m (listing e network l) sh = view m (listing e network l') sh := by
  refine Roster.ext rfl rfl rfl ?_ rfl rfl rfl rfl rfl rfl
  rw [view_listing_waiting, view_listing_waiting, Multiset.coe_eq_coe.mpr h]

/-- Replacing a list by itself. -/
theorem view_listing_self (s : State) (network : NetworkId) :
    view s.members (listing s.elections network (s.elections.unassigned.getD network [])) s.shards
      = s.roster := by
  refine Roster.ext rfl rfl rfl ?_ rfl rfl rfl rfl rfl rfl
  rw [view_listing_waiting]
  exact Function.update_eq_self ..

section Create

variable {fits : Nat → Nat → Prop} {cfg : Config} {block : BlockNumber} {network : NetworkId}
  {threshold : Nat} {sh sh' : ShardsStore}

theorem createShard_view (m : MembersStore) (e : ElectionsStore) {as l : List AccountId}
    (h : Shards.createShard cfg block network threshold sh as = some sh') :
    view m (listing e network l) sh' = (view m (listing e network (as ++ l)) sh).elect
      sh.shardIdCounter network threshold as := by
  simp only [Shards.createShard] at h
  split at h
  · cases h
    refine Roster.ext rfl rfl rfl ?_ ?_ ?_ ?_ ?_ ?_ ?_
    · simp only [Roster.elect, view_listing_waiting, Function.update_idem, Function.update_self,
        ← Multiset.coe_add, add_tsub_cancel_left]
      rfl
    · funext a
      refine (StorageMap.get_insertAll ..).trans ?_
      simp only [Roster.elect]
      by_cases ha : a ∈ as
      · rw [if_pos ha, if_pos ha]
      · rw [if_neg ha, if_neg ha]
        rfl
    · funext x
      ext a
      refine (StorageMap.mem_prefixKeys ..).trans ?_
      have hold : a ∈ (view m (listing e network (as ++ l)) sh).crew x
          ↔ sh.shardMembers.get (x, a) ≠ none := StorageMap.mem_prefixKeys
      have hmem : (x, a) ∈ as.map (fun member => (sh.shardIdCounter, member))
          ↔ x = sh.shardIdCounter ∧ a ∈ as := by
        simp [eq_comm, and_comm]
      simp only [Roster.elect, Function.update_apply, StorageMap.get_insertAll]
      by_cases hx : x = sh.shardIdCounter
      · subst hx
        rw [if_pos rfl, Finset.mem_union, List.mem_toFinset, hold]
        by_cases ha : a ∈ as
        · rw [if_pos (hmem.mpr ⟨rfl, ha⟩)]
          exact iff_of_true (Option.some_ne_none _) (Or.inr ha)
        · rw [if_neg fun hno => ha (hmem.mp hno).2]
          exact ⟨Or.inl, fun h => h.resolve_right ha⟩
      · rw [if_neg hx, if_neg fun hno => hx (hmem.mp hno).1, hold]
    · exact (StorageMap.get_insert_eq ..)
    · exact (StorageMap.get_insert_eq ..)
    · exact (StorageMap.get_insert_eq ..)
    · funext x
      refine (StorageMap.getD_insert ..).trans ?_
      simp only [Roster.elect, Function.update_apply]
      rfl
  · cases h

/-- The next id is used, and its shard has no member that is ready. -/
theorem createShard_numbered {as : List AccountId}
    (h : Shards.createShard cfg block network threshold sh as = some sh') (hn : Numbered sh)
    (hlt : sh.createdShards.length + 1 < 2 ^ 64) :
    Numbered sh' ∧ (Ready sh → Ready sh') ∧
    sh'.createdShards = sh.createdShards ++ [⟨sh.shardIdCounter, network, as⟩] := by
  simp only [Shards.createShard] at h
  split at h
  · cases h
    have hsucc : satSucc 64 sh.shardIdCounter = sh.shardIdCounter + 1 := by
      refine satSucc_of_lt ?_
      rw [hn.counter]
      simp only [maxVal]
      omega
    refine ⟨⟨?_, fun x hx => ?_⟩, fun hr x a status hs ha => ?_, rfl⟩
    · rw [hsucc, hn.counter, List.length_append]
      rfl
    · dsimp only at hx ⊢
      rw [hsucc] at hx
      rw [StorageMap.get_insert_of_ne _ _ (Nat.ne_of_gt hx)]
      exact hn.fresh x (Nat.le_of_succ_le hx)
    · dsimp only at hs ha
      rw [StorageMap.get_insert] at hs
      split at hs
      · cases hs
      · next hx =>
          rw [StorageMap.get_insertAll, if_neg] at ha
          · exact hr x a status hs ha
          · intro hmem
            obtain ⟨b, -, heq⟩ := List.mem_map.mp hmem
            exact hx (congrArg Prod.fst heq).symm
  · cases h

/-- One shard is created for the accounts at the head of the list. -/
theorem createShard_step (lists : AccountId → NetworkId → Prop) (m : MembersStore)
    (e : ElectionsStore) {as : List AccountId} (l : List AccountId)
    (h : Shards.createShard cfg block network threshold sh as = some sh') (hn : Numbered sh)
    (hfits : fits threshold as.length) :
    Roster.Step lists fits (view m (listing e network (as ++ l)) sh)
      (view m (listing e network l) sh') := by
  rw [createShard_view m e h]
  refine .elect (hn.fresh _ (Nat.le_refl _)) ?_ hfits
  rw [view_listing_waiting, Function.update_self, ← Multiset.coe_add]
  exact Multiset.le_add_right _ _

/-- What the loop over the chunks has done: the shards in `new` were
formed from `members`, `unelected` are left. -/
structure Formed (lists : AccountId → NetworkId → Prop) (fits : Nat → Nat → Prop)
    (m : MembersStore) (e : ElectionsStore) (network : NetworkId)
    (rest members unelected : List AccountId) (sh sh' : ShardsStore) (new : List Created) :
    Prop where
  steps : ReflTransGen (Roster.Step lists fits) (view m (listing e network (members ++ rest)) sh)
    (view m (listing e network (unelected ++ rest)) sh')
  numbered : Numbered sh'
  ready : Ready sh → Ready sh'
  created : sh'.createdShards = sh.createdShards ++ new
  unelected_le : (unelected : Multiset AccountId) ≤ members
  mem : ∀ c ∈ new, c.network = network ∧ ∀ a ∈ c.members, a ∈ members

theorem createShards_formed (lists : AccountId → NetworkId → Prop) (cfg : Config)
    (block : BlockNumber) (network : NetworkId) (m : MembersStore) (e : ElectionsStore)
    {shardSize : Nat} (hfits : fits threshold shardSize) {chunks : Nat}
    (members rest : List AccountId) {sh : ShardsStore} (num : Nat) (hn : Numbered sh)
    (hlt : sh.createdShards.length + chunks < 2 ^ 64) (hlen : chunks * shardSize ≤ members.length) :
    ∃ sh' unelected new,
      Elections.createShards (Shards.createShard cfg block network threshold) shardSize chunks
        members sh num = (sh', unelected, num + new.length) ∧
      new.length ≤ chunks ∧
      Formed lists fits m e network rest members unelected sh sh' new := by
  induction chunks generalizing members sh num with
  | zero =>
      exact ⟨sh, members, [], rfl, Nat.le_refl 0, .refl, hn, id, (List.append_nil _).symm,
        le_refl _, by simp⟩
  | succ chunks ih =>
      rw [Elections.createShards]
      rw [Nat.succ_mul] at hlen
      cases h : Shards.createShard cfg block network threshold sh (members.take shardSize) with
      | none =>
          exact ⟨sh, members, [], rfl, Nat.zero_le _, .refl, hn, id, (List.append_nil _).symm,
            le_refl _, by simp⟩
      | some sh₁ =>
          have htake : (members.take shardSize).length = shardSize := by
            rw [List.length_take]
            omega
          have hstep := createShard_step lists m e (members.drop shardSize ++ rest) h hn
            (htake.symm ▸ hfits)
          obtain ⟨hn₁, hready, hcreated⟩ := createShard_numbered h hn (by omega)
          have hlt₁ : sh₁.createdShards.length + chunks < 2 ^ 64 := by
            rw [hcreated, List.length_append, List.length_singleton]
            omega
          obtain ⟨sh', unelected, new, heq, hle, hformed⟩ := ih (members.drop shardSize) (num + 1)
            hn₁ hlt₁ (by rw [List.length_drop]; omega)
          refine ⟨sh', unelected, ⟨sh.shardIdCounter, network, members.take shardSize⟩ :: new,
            ?_, ?_, ?_⟩
          · dsimp only
            rw [heq, List.length_cons]
            congr 2
            omega
          · rw [List.length_cons]
            exact Nat.succ_le_succ hle
          · have hsplit : members ++ rest
                = members.take shardSize ++ (members.drop shardSize ++ rest) := by
              rw [← List.append_assoc, List.take_append_drop]
            refine ⟨?_, hformed.numbered, fun hr => hformed.ready (hready hr), ?_, ?_, ?_⟩
            · rw [hsplit]
              exact .head hstep hformed.steps
            · rw [hformed.created, hcreated, List.append_assoc]
              rfl
            · refine hformed.unelected_le.trans ?_
              exact Multiset.coe_le.mpr (List.drop_sublist _ _).subperm
            · intro c hc
              rcases List.mem_cons.mp hc with rfl | hc
              · exact ⟨rfl, fun a ha => List.mem_of_mem_take ha⟩
              · obtain ⟨hnet, hmem⟩ := hformed.mem c hc
                exact ⟨hnet, fun a ha => List.mem_of_mem_drop (hmem a ha)⟩

end Create

/-- What elections do. -/
structure Elects (lists : AccountId → NetworkId → Prop) (fits : Nat → Nat → Prop)
    (new : List Created) (s s' : State) : Prop where
  steps : ReflTransGen (Roster.Step lists fits) s.roster s'.roster
  numbered : Numbered s'.shards
  ready : Ready s.shards → Ready s'.shards
  created : s'.shards.createdShards = s.shards.createdShards ++ new
  mem : ∀ c ∈ new, ∀ a ∈ c.members, a ∈ s.roster.waiting c.network
  waiting_le : ∀ n, s'.roster.waiting n ≤ s.roster.waiting n
  members : s'.members = s.members
  tasks : s'.tasks = s.tasks
  blockNumber : s'.blockNumber = s.blockNumber
  dueHooks : s'.dueHooks = s.dueHooks

section Elect

variable {lists : AccountId → NetworkId → Prop} {fits : Nat → Nat → Prop} {cfg : Config}
  {networks : Networks}

theorem Elects.refl {s : State} (hn : Numbered s.shards) : Elects lists fits [] s s :=
  ⟨.refl, hn, id, (List.append_nil _).symm, by simp, fun _ => le_refl _, rfl, rfl, rfl, rfl⟩

theorem Elects.trans {new new' : List Created} {s s' s'' : State}
    (h : Elects lists fits new s s') (h' : Elects lists fits new' s' s'') :
    Elects lists fits (new ++ new') s s'' where
  steps := h.steps.trans h'.steps
  numbered := h'.numbered
  ready hr := h'.ready (h.ready hr)
  created := by rw [h'.created, h.created, List.append_assoc]
  mem c hc a ha := by
    rcases List.mem_append.mp hc with hc | hc
    · exact h.mem c hc a ha
    · exact Multiset.mem_of_le (h.waiting_le _) (h'.mem c hc a ha)
  waiting_le n := (h'.waiting_le n).trans (h.waiting_le n)
  members := h'.members.trans h.members
  tasks := h'.tasks.trans h.tasks
  blockNumber := h'.blockNumber.trans h.blockNumber
  dueHooks := h'.dueHooks.trans h.dueHooks

theorem tryElectShards_elects (lists : AccountId → NetworkId → Prop) {network : NetworkId}
    {maxElections elected : Nat} {s s' : State}
    (h : Elections.tryElectShards s cfg networks network maxElections = some (s', elected))
    (hn : Numbered s.shards) (hlt : s.shards.createdShards.length + maxElections < 2 ^ 64)
    (hfits : fits (networks.shardThreshold network).toNat (networks.shardSize network).toNat) :
    ∃ new, Elects lists fits new s s' ∧ new.length = elected ∧ elected ≤ maxElections := by
  simp only [Elections.tryElectShards] at h
  split at h
  · cases h
  · generalize hU : s.elections.unassigned.getD network [] = unassigned at h
    generalize hk : min (unassigned.length % 2 ^ 32 / (networks.shardSize network).toNat)
      maxElections = chunks at h
    have hmax : chunks ≤ maxElections := hk ▸ Nat.min_le_right _ _
    have hlen : chunks * (networks.shardSize network).toNat ≤ unassigned.length := by
      refine Nat.le_trans (Nat.mul_le_mul_right _ (hk ▸ Nat.min_le_left _ _)) ?_
      exact Nat.le_trans (Nat.div_mul_le_self _ _) (Nat.mod_le _ _)
    generalize hnum : chunks * (networks.shardSize network).toNat = numElected at h hlen
    have htake : chunks * (networks.shardSize network).toNat
        ≤ (unassigned.take numElected).length := by
      rw [List.length_take]
      omega
    obtain ⟨sh', unelected, new, heq, hle, hformed⟩ := createShards_formed lists cfg s.blockNumber
      network s.members s.elections hfits (unassigned.take numElected)
      (unassigned.drop numElected) 0 hn (by omega) htake
    rw [heq, Nat.zero_add] at h
    cases h
    have hbefore : view s.members (listing s.elections network
        (unassigned.take numElected ++ unassigned.drop numElected)) s.shards = s.roster := by
      rw [List.take_append_drop, ← hU]
      exact view_listing_self s network
    have hperm : (unelected ++ unassigned.drop numElected).Perm
        (unassigned.drop numElected ++ unelected) := List.perm_append_comm
    have hafter := view_listing_perm s.members s.elections sh' network hperm
    have hwaiting : s.roster.waiting network = (unassigned : Multiset AccountId) :=
      congrArg _ hU
    refine ⟨new, ⟨?_, hformed.numbered, hformed.ready, hformed.created, ?_, fun n => ?_, rfl, rfl,
      rfl, rfl⟩, rfl, hle.trans hmax⟩
    · have hsteps := hformed.steps
      rw [hbefore, hafter] at hsteps
      exact hsteps
    · intro c hc a ha
      obtain ⟨hnet, hmem⟩ := hformed.mem c hc
      rw [hnet, hwaiting, Multiset.mem_coe]
      exact List.mem_of_mem_take (hmem a ha)
    · change (view s.members (listing s.elections network
        (unassigned.drop numElected ++ unelected)) sh').waiting n ≤ _
      rw [view_listing_waiting, Function.update_apply]
      split
      · next hn =>
          rw [hn, hwaiting]
          calc ((unassigned.drop numElected ++ unelected : List AccountId) : Multiset AccountId)
            _ = (unelected : Multiset AccountId) + unassigned.drop numElected := by
                rw [← Multiset.coe_add, add_comm]
            _ ≤ (unassigned.take numElected : Multiset AccountId) + unassigned.drop numElected :=
                Multiset.add_le_add_right hformed.unelected_le
            _ = unassigned := by rw [Multiset.coe_add, List.take_append_drop]
      · exact le_refl _

/-- The loop over the networks keeps to the limit of the block. -/
theorem electNetworks_elects (lists : AccountId → NetworkId → Prop)
    {counter0 fuel netCounter numElections : Nat} {s : State}
    {result : State × Nat × Bool}
    (h : Elections.electNetworks cfg networks counter0 fuel s netCounter numElections
      = some result)
    (hn : Numbered s.shards)
    (hlt : s.shards.createdShards.length + (cfg.maxElectionsPerBlock - numElections) < 2 ^ 64)
    (hfits : ∀ n, fits (networks.shardThreshold n).toNat (networks.shardSize n).toNat) :
    ∃ new, Elects lists fits new s result.1 ∧
      new.length ≤ cfg.maxElectionsPerBlock - numElections := by
  induction fuel generalizing s netCounter numElections with
  | zero =>
      cases h
      exact ⟨[], .refl hn, Nat.zero_le _⟩
  | succ fuel ih =>
      rw [Elections.electNetworks] at h
      split at h
      · next hnum =>
          split at h
          · cases h
            exact ⟨[], .refl hn, Nat.zero_le _⟩
          · next network _ =>
              obtain ⟨⟨s₁, elected⟩, h₁, h⟩ := Option.bind_eq_some_iff.mp h
              obtain ⟨new, helects, rfl, hle⟩ :=
                tryElectShards_elects lists h₁ hn hlt (hfits network)
              dsimp only at h
              split at h
              · cases h
                exact ⟨new, helects, hle⟩
              · have hsum : satAdd 32 numElections new.length = numElections + new.length := by
                  refine satAdd_of_lt ?_
                  have := cfg.maxElectionsPerBlock_lt
                  omega
                rw [hsum] at h
                have hlt₁ : s₁.shards.createdShards.length
                    + (cfg.maxElectionsPerBlock - (numElections + new.length)) < 2 ^ 64 := by
                  rw [helects.created, List.length_append]
                  omega
                obtain ⟨new', helects', hle'⟩ := ih h helects.numbered hlt₁
                refine ⟨new ++ new', helects.trans helects', ?_⟩
                rw [List.length_append]
                omega
      · cases h
        exact ⟨[], .refl hn, Nat.zero_le _⟩

theorem onInitialize_elects (lists : AccountId → NetworkId → Prop) {s s' : State}
    (h : Elections.onInitialize s cfg networks = some s') (hn : Numbered s.shards)
    (hlt : s.shards.createdShards.length + cfg.maxElectionsPerBlock < 2 ^ 64)
    (hfits : ∀ n, fits (networks.shardThreshold n).toNat (networks.shardSize n).toNat) :
    ∃ new, Elects lists fits new s s' ∧ new.length ≤ cfg.maxElectionsPerBlock := by
  obtain ⟨⟨s₁, netCounter, all⟩, h₁, h⟩ := Option.bind_eq_some_iff.mp h
  obtain ⟨new, helects, hle⟩ := electNetworks_elects lists h₁ hn hlt hfits
  refine ⟨new, ?_, hle⟩
  dsimp only at h
  split at h
  · cases h
    exact helects
  · cases h
    exact ⟨helects.steps, helects.numbered, helects.ready, helects.created, helects.mem,
      helects.waiting_le, helects.members, helects.tasks, helects.blockNumber, helects.dueHooks⟩

end Elect

/-! ## The loop over the networks ends

The counter goes once around the list of networks, so that the fuel
does not cut it short. -/

theorem electNetworks_fuel (cfg : Config) {networks : Networks} {counter0 k fuel : Nat}
    (hcounter : counter0 < networks.getNetworks.length)
    (hfuel : networks.getNetworks.length ≤ k + fuel) (hk : k < networks.getNetworks.length)
    (extra : Nat) (s : State) (numElections : Nat) :
    Elections.electNetworks cfg networks counter0 (fuel + extra) s
        ((counter0 + k) % networks.getNetworks.length) numElections
      = Elections.electNetworks cfg networks counter0 fuel s
        ((counter0 + k) % networks.getNetworks.length) numElections := by
  induction fuel generalizing k s numElections with
  | zero => omega
  | succ fuel ih =>
      rw [Nat.add_right_comm, Elections.electNetworks, Elections.electNetworks]
      split
      · split
        · rfl
        · refine Option.bind_congr fun result _ => ?_
          dsimp only
          rw [Nat.mod_add_mod, Nat.add_assoc]
          split
          · rfl
          · next hne =>
              -- The round that comes back to `counter0` is the last one.
              have hk' : k + 1 ≠ networks.getNetworks.length := by
                intro heq
                rw [heq, Nat.add_mod_right, Nat.mod_eq_of_lt hcounter] at hne
                exact hne rfl
              exact ih (by omega) (by omega) _ _
      · rfl

theorem onInitialize_fuel (cfg : Config) (networks : Networks) (s : State) (counter0 extra : Nat) :
    Elections.electNetworks cfg networks counter0 (networks.getNetworks.length + 1 + extra) s
        counter0 0
      = Elections.electNetworks cfg networks counter0 (networks.getNetworks.length + 1) s
        counter0 0 := by
  by_cases hcounter : counter0 < networks.getNetworks.length
  · have h := electNetworks_fuel cfg (k := 0) hcounter
      (Nat.le_add_left_of_le (Nat.le_succ networks.getNetworks.length)) (by omega) extra s 0
    rwa [Nat.add_zero counter0, Nat.mod_eq_of_lt hcounter] at h
  · rw [Nat.add_right_comm, Elections.electNetworks, Elections.electNetworks,
      List.getElem?_eq_none (Nat.le_of_not_lt hcounter)]

/-! ## Key generation -/

/-- Storage when the member has been given a new status. -/
def writeStatus (s : State) (shard : ShardId) (a : AccountId) (status : MemberStatus) : State :=
  { s with shards := { s.shards with
    shardMembers := s.shards.shardMembers.insert (shard, a) status } }

theorem writeStatus_roster {s : State} {shard : ShardId} {a : AccountId} (status : MemberStatus)
    (h : s.shards.shardMembers.get (shard, a) ≠ none) :
    (writeStatus s shard a status).roster = s.roster :=
  Roster.ext rfl rfl rfl rfl rfl (StorageMap.prefixKeys_insert_of_ne_none h status) rfl rfl rfl rfl

/-- As long as somebody is not ready, the shard is not online. -/
theorem writeStatus_ready {s : State} {shard : ShardId} {a : AccountId} {old : MemberStatus}
    (status : MemberStatus) (h : s.shards.shardMembers.get (shard, a) = some old)
    (hold : old ≠ .ready) (hready : Ready s.shards) :
    Ready (writeStatus s shard a status).shards := by
  intro x b st hs hb
  have hx : x ≠ shard := by
    rintro rfl
    exact hold (hready x a old hs h)
  refine hready x b st hs ?_
  simp only [writeStatus] at hb
  rwa [StorageMap.get_insert_of_ne] at hb
  intro heq
  exact hx (congrArg Prod.fst heq)

theorem writeStatus_still {s : State} {shard : ShardId} {a : AccountId} {old : MemberStatus}
    (status : MemberStatus) (h : s.shards.shardMembers.get (shard, a) = some old)
    (hold : old ≠ .ready) : Still s (writeStatus s shard a status) :=
  ⟨⟨id, writeStatus_ready status h hold, id, rfl, rfl, rfl, rfl⟩, rfl, rfl⟩

theorem advance_step {lists : AccountId → NetworkId → Prop} {fits : Nat → Nat → Prop}
    {s s' : State} {shard : ShardId} (status : ShardStatus)
    (h : s'.roster = s.roster.advance shard status) (hcrew : (s.roster.crew shard).Nonempty)
    (hne : status ≠ .offline)
    (hback : status.isPending = true → s.roster.status shard ≠ some .online) :
    Roster.Step lists fits s.roster s'.roster := by
  rw [h]
  exact .advance hcrew hne hback

theorem commitShard_moves (lists : AccountId → NetworkId → Prop) (fits : Nat → Nat → Prop)
    {cfg : Config} {s s' : State} {shard : ShardId} (hcrew : (s.roster.crew shard).Nonempty)
    (hstatus : s.roster.status shard ≠ some .online)
    (h : Shards.commitShard s cfg shard = .ok (some s')) :
    ReflTransGen (Roster.Step lists fits) s.roster s'.roster ∧ Still s s' ∧
      s'.roster.online = s.roster.online := by
  simp only [Shards.commitShard] at h
  split at h
  · split at h
    · cases h
    · next first rest _ =>
        cases hgroup : rest.foldlM (Shards.addCommitment cfg) first with
        | none =>
            rw [hgroup] at h
            cases h
        | some group =>
            rw [hgroup] at h
            cases h
            refine ⟨.single ?_, ⟨⟨id, fun hr => hr.mono (fun {x} hx => ?_) id, id, rfl, rfl, rfl,
              rfl⟩, rfl, rfl⟩, rfl⟩
            · refine advance_step .committed ?_ hcrew (by decide) fun _ => hstatus
              exact Roster.ext rfl rfl rfl rfl rfl rfl rfl (StorageMap.get_insert_eq ..) rfl rfl
            · simp only [Shards.depositEvent, StorageMap.get_insert] at hx
              split at hx
              · cases hx
              · exact hx
  · cases h
    exact ⟨.refl, .refl _, rfl⟩

/-- A member's status moves on, and perhaps that of its shard. -/
theorem executeCommit_moves {lists : AccountId → NetworkId → Prop} {fits : Nat → Nat → Prop}
    {cfg : Config} {s s' : State} {a : AccountId} {shard : ShardId} {commitment : Commitment}
    {proof : ProofOfKnowledge} (hready : Ready s.shards)
    (h : Shards.executeCommit s cfg a shard commitment proof = .ok (some s')) :
    ReflTransGen (Roster.Step lists fits) s.roster s'.roster ∧ Still s s' ∧
      s'.roster.online = s.roster.online := by
  obtain ⟨⟨⟩, hadded, h⟩ := bind_ok h
  obtain ⟨-, -, h⟩ := bind_ok h
  obtain ⟨-, -, h⟩ := bind_ok h
  obtain ⟨peerId, -, h⟩ := bind_ok h
  obtain ⟨-, -, h⟩ := bind_ok h
  have hadded : s.shards.shardMembers.get (shard, a) = some .added := by
    simpa using ensure_ok hadded
  have hmem : s.shards.shardMembers.get (shard, a) ≠ none :=
    hadded ▸ Option.some_ne_none MemberStatus.added
  have hroster := writeStatus_roster (.committed commitment) hmem
  have hstill := writeStatus_still (.committed commitment) hadded (by decide)
  have hmoves := commitShard_moves lists fits
    (s := writeStatus s shard a (.committed commitment)) ?_ ?_ h
  · rw [hroster] at hmoves
    exact ⟨hmoves.1, hstill.trans hmoves.2.1, hmoves.2.2⟩
  · rw [hroster]
    exact ⟨a, StorageMap.mem_prefixKeys.mpr hmem⟩
  · rw [hroster]
    intro honline
    cases hready shard a .added honline hadded

/-- The last member to be ready opens the shard. -/
theorem openShard_moves (lists : AccountId → NetworkId → Prop) (fits : Nat → Nat → Prop)
    {cfg : Config} {networks : Networks} {s s' : State} {shard : ShardId} {network : NetworkId}
    {commitment : Commitment} (hcrew : (s.roster.crew shard).Nonempty)
    (h : Shards.openShard s cfg networks shard network commitment = some s') :
    ReflTransGen (Roster.Step lists fits) s.roster s'.roster ∧ Still s s' ∧
      s'.roster.online = s.roster.online := by
  simp only [Shards.openShard] at h
  split at h
  · next hall =>
      obtain ⟨key, -, h⟩ := Option.map_eq_some_iff.mp h
      cases h
      refine ⟨.single ?_, ⟨⟨id, fun hr x a status hx ha => ?_, id, rfl, rfl, rfl, rfl⟩, rfl, rfl⟩,
        rfl⟩
      · refine advance_step .online ?_ hcrew (by decide) fun hno => by cases hno
        exact Roster.ext rfl rfl rfl rfl rfl rfl rfl (StorageMap.get_insert_eq ..) rfl rfl
      · simp only [Shards.depositEvent, StorageMap.get_insert] at hx ha
        split at hx
        · next heq =>
            subst heq
            have hmem : (a, status) ∈ Shards.getShardMembers cfg s.shards x :=
              StorageMap.mem_iterPrefix.mpr ha
            simpa using List.all_eq_true.mp hall (a, status) hmem
        · exact hr x a status hx ha
  · cases h
    exact ⟨.refl, .refl _, rfl⟩

theorem executeReady_moves {lists : AccountId → NetworkId → Prop} {fits : Nat → Nat → Prop}
    {cfg : Config} {networks : Networks} {s s' : State} {a : AccountId} {shard : ShardId}
    (h : Shards.executeReady s cfg networks a shard = .ok (some s')) :
    ReflTransGen (Roster.Step lists fits) s.roster s'.roster ∧ Still s s' ∧
      s'.roster.online = s.roster.online := by
  obtain ⟨⟨⟩, hcommitted, h⟩ := bind_ok h
  obtain ⟨network, -, h⟩ := bind_ok h
  obtain ⟨commitment, -, h⟩ := bind_ok h
  have hcommitted := ensure_ok hcommitted
  cases hget : s.shards.shardMembers.get (shard, a) with
  | none =>
      rw [hget] at hcommitted
      cases hcommitted
  | some old =>
      have hold : old ≠ .ready := by
        rintro rfl
        rw [hget] at hcommitted
        cases hcommitted
      have hmem : s.shards.shardMembers.get (shard, a) ≠ none := hget ▸ Option.some_ne_none old
      have hroster := writeStatus_roster .ready hmem
      have hmoves := openShard_moves lists fits
        (s := writeStatus s shard a .ready) ?_ (Except.ok.inj h)
      · rw [hroster] at hmoves
        exact ⟨hmoves.1, (writeStatus_still .ready hget hold).trans hmoves.2.1, hmoves.2.2⟩
      · rw [hroster]
        exact ⟨a, StorageMap.mem_prefixKeys.mpr hmem⟩

/-! ## Timeouts of key generation -/

theorem timeoutDkgs_moves {lists : AccountId → NetworkId → Prop} {fits : Nat → Nat → Prop}
    {cfg : Config} {networks : Networks} {s s' : State} {n : BlockNumber}
    (h : Shards.timeoutDkgs s cfg networks n = some s') :
    ReflTransGen (Roster.Step lists fits) s.roster s'.roster ∧ Still s s' ∧
      s'.roster.online = s.roster.online := by
  obtain ⟨s₁, h₁, rfl⟩ := Option.map_eq_some_iff.mp h
  split at h₁
  · cases h₁
    exact ⟨.refl, ⟨⟨id, id, id, rfl, rfl, rfl, rfl⟩, rfl, rfl⟩, rfl⟩
  · have hnodup := (StorageMap.iterPrefix_keys_nodup cfg.tasks.shardKey s.shards.dkgTimeout n).filter
      fun shard => (s.shards.shardState.get shard).any ShardStatus.isPending
    obtain ⟨hroster, hstill⟩ := removeShardsOffline_roster hnodup h₁
    have honline := congrArg Roster.online hroster
    refine ⟨.single ?_, ⟨⟨hstill.known, hstill.ready, hstill.unserved, hstill.shardIdCounter,
      hstill.createdShards, hstill.blockNumber, hstill.dueHooks⟩, hstill.heartbeat,
      hstill.timedOut⟩, honline⟩
    change Roster.Step lists fits s.roster s₁.roster
    rw [hroster]
    exact .dissolve hnodup

end Chain

end Timechain
