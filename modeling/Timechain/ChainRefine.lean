import Timechain.ChainRoster

/-!
# The pallets keep a roster

`view` reads a roster off the storage of the three pallets. This file
goes through the functions of `ChainPallets` and says what each of them
does to the view: going online, going offline and dissolving, electing,
advancing.
-/

namespace Timechain

namespace Chain

open Relation (ReflTransGen)

/-- The roster in storage. -/
def view (m : MembersStore) (e : ElectionsStore) (sh : ShardsStore) :
    Roster AccountId NetworkId ShardId where
  network := m.memberNetwork.get
  registered := m.memberRegistered.containsKey
  online := m.memberOnline.containsKey
  waiting network := (e.unassigned.getD network [] : Multiset AccountId)
  seat := sh.memberShard.get
  crew := sh.shardMembers.prefixKeys
  shardNetwork := sh.shardNetwork.get
  status := sh.shardState.get
  threshold := sh.shardThreshold.get
  count shard := sh.shardMembersOnline.getD shard 0

def State.roster (s : State) : Roster AccountId NetworkId ShardId :=
  view s.members s.elections s.shards

/-! ## Forgetting members -/

/-- `m'` is `m` without the entries of the accounts in `gone`. -/
structure Forgets (gone : AccountId → Prop) [DecidablePred gone] (m m' : MembersStore) : Prop where
  network : ∀ a, m'.memberNetwork.get a = if gone a then none else m.memberNetwork.get a
  peerId : ∀ a, m'.memberPeerId.get a = if gone a then none else m.memberPeerId.get a
  publicKey : ∀ a, m'.memberPublicKey.get a = if gone a then none else m.memberPublicKey.get a
  online : m'.memberOnline = m.memberOnline
  registered : m'.memberRegistered = m.memberRegistered
  heartbeat : m'.heartbeat = m.heartbeat
  timedOut : m'.timedOut = m.timedOut

namespace Forgets

variable {gone gone' : AccountId → Prop} [DecidablePred gone] [DecidablePred gone']
  {m m' m'' : MembersStore}

theorem congr (h : Forgets gone m m') (hiff : ∀ a, gone a ↔ gone' a) : Forgets gone' m m' := by
  obtain ⟨hn, hp, hk, ho, hr, hb, ht⟩ := h
  simp only [hiff] at hn hp hk
  exact ⟨hn, hp, hk, ho, hr, hb, ht⟩

theorem trans (h : Forgets gone m m') (h' : Forgets gone' m' m'') :
    Forgets (fun a => gone' a ∨ gone a) m m'' where
  network a := by rw [h'.network, h.network, ← ite_or]
  peerId a := by rw [h'.peerId, h.peerId, ← ite_or]
  publicKey a := by rw [h'.publicKey, h.publicKey, ← ite_or]
  online := h'.online.trans h.online
  registered := h'.registered.trans h.registered
  heartbeat := h'.heartbeat.trans h.heartbeat
  timedOut := h'.timedOut.trans h.timedOut

theorem of_none (m : MembersStore) (h : ∀ a, ¬gone a) : Forgets gone m m := by
  constructor <;> intros <;> simp [h]

end Forgets

theorem doUnregisterMember_forgets (sh : ShardsStore) (m : MembersStore) (account : AccountId) :
    Forgets (fun a => a = account ∧ sh.memberShard.get a = none) m
      (Members.doUnregisterMember sh m account) := by
  rw [Members.doUnregisterMember]
  by_cases hmem : Shards.isShardMember sh account
  · have hseat : sh.memberShard.get account ≠ none := StorageMap.containsKey_iff.mp hmem
    rw [hmem]
    refine Forgets.of_none m ?_
    rintro a ⟨rfl, ha⟩
    exact hseat ha
  · have hseat : sh.memberShard.get account = none := by
      simpa [Shards.isShardMember, StorageMap.containsKey] using hmem
    rw [Bool.eq_false_iff.mpr hmem]
    have hremoved : Forgets (fun a => a = account) m
        { m with
          memberNetwork := m.memberNetwork.remove account
          memberPeerId := m.memberPeerId.remove account
          memberPublicKey := m.memberPublicKey.remove account } := by
      constructor <;> intros <;> simp [StorageMap.get_remove]
    exact hremoved.congr fun a => ⟨fun ha => ⟨ha, ha ▸ hseat⟩, And.left⟩

/-- Who is forgotten when the members of `group` lose their shard. -/
def Forgotten (sh : ShardsStore) (m : MembersStore) (group : List AccountId) (a : AccountId) :
    Prop :=
  a ∈ group ∧ m.memberRegistered.containsKey a = false ∧ sh.memberShard.get a = none

instance (sh : ShardsStore) (m : MembersStore) (group : List AccountId) :
    DecidablePred (Forgotten sh m group) := fun _ => inferInstanceAs (Decidable (_ ∧ _))

/-- The loop of `shard_offline`: unregistered members are forgotten, and
those registered and online are batched. -/
theorem foldl_settleMember (sh : ShardsStore) (m : MembersStore) (group batch : List AccountId) :
    Forgets (Forgotten sh m group) m (group.foldl (Elections.settleMember sh) (m, batch)).1 ∧
    (group.foldl (Elections.settleMember sh) (m, batch)).2
      = batch ++ group.filter fun a =>
          m.memberRegistered.containsKey a && m.memberOnline.containsKey a := by
  induction group generalizing m batch with
  | nil => exact ⟨Forgets.of_none m fun a ha => List.not_mem_nil ha.1, by simp⟩
  | cons member group ih =>
      rw [List.foldl_cons]
      by_cases hreg : m.memberRegistered.containsKey member = true
      · have hstep : Elections.settleMember sh (m, batch) member
            = (m, batch ++ if m.memberOnline.containsKey member then [member] else []) := by
          simp only [Elections.settleMember, Members.isMemberRegistered, Members.isMemberOnline,
            hreg]
          by_cases hon : m.memberOnline.containsKey member = true <;> simp [hon]
        rw [hstep]
        obtain ⟨hf, hb⟩ := ih m (batch ++ if m.memberOnline.containsKey member then [member] else [])
        refine ⟨hf.congr fun a => ?_, ?_⟩
        · refine and_congr_left fun hno => ⟨List.mem_cons_of_mem member, fun ha => ?_⟩
          refine (List.mem_cons.mp ha).resolve_left ?_
          rintro rfl
          rw [hreg] at hno
          cases hno.1
        · rw [hb, List.filter_cons, hreg, Bool.true_and, List.append_assoc]
          split <;> simp
      · have hreg := Bool.eq_false_iff.mpr hreg
        have hstep : Elections.settleMember sh (m, batch) member
            = (Members.doUnregisterMember sh m member, batch) := by
          simp [Elections.settleMember, Members.isMemberRegistered, hreg]
        have hd := doUnregisterMember_forgets sh m member
        rw [hstep]
        obtain ⟨hf, hb⟩ := ih (Members.doUnregisterMember sh m member) batch
        refine ⟨(hd.trans hf).congr fun a => ?_, ?_⟩
        · simp only [Forgotten, hd.registered, List.mem_cons]
          constructor
          · rintro (⟨ha, hno, hseat⟩ | ⟨rfl, hseat⟩)
            · exact ⟨Or.inr ha, hno, hseat⟩
            · exact ⟨Or.inl rfl, hreg, hseat⟩
          · rintro ⟨rfl | ha, hno, hseat⟩
            · exact Or.inr ⟨rfl, hseat⟩
            · exact Or.inl ⟨ha, hno, hseat⟩
        · rw [hb, hd.registered, hd.online, List.filter_cons, hreg]
          simp

/-! ## Dissolving shards -/

/-- Registered and online. -/
def eligible (m : MembersStore) (a : AccountId) : Bool :=
  m.memberRegistered.containsKey a && m.memberOnline.containsKey a

/-- Nothing but the members and elections pallets moves from `s` to `s'`. -/
structure Frame (s s' : State) : Prop where
  shards : s'.shards = s.shards
  tasks : s'.tasks = s.tasks
  blockNumber : s'.blockNumber = s.blockNumber
  dueHooks : s'.dueHooks = s.dueHooks

/-- The members in `group`, if it is that of `network`. -/
def membersFor (network : NetworkId) (group : NetworkId × List AccountId) : List AccountId :=
  if group.1 = network then group.2 else []

/-- The members of dissolved shards are settled, group by group. -/
structure Settles (groups : List (NetworkId × List AccountId)) (s s' : State) : Prop
    extends Frame s s' where
  members : Forgets (Forgotten s.shards s.members (groups.flatMap Prod.snd)) s.members s'.members
  networkCounter : s'.elections.networkCounter = s.elections.networkCounter
  waiting : ∀ network, s'.roster.waiting network = s.roster.waiting network
    + ((groups.flatMap (membersFor network)).filter (eligible s.members) : List AccountId)

theorem coe_mutateUnassigned (e : ElectionsStore) (network n : NetworkId)
    (f : List AccountId → List AccountId) :
    ((Elections.mutateUnassigned e network f).unassigned.getD n [] : Multiset AccountId)
      = if n = network then (f (e.unassigned.getD network []) : Multiset AccountId)
        else e.unassigned.getD n [] := by
  rw [Elections.mutateUnassigned, StorageMap.getD_insert]
  split <;> rfl

theorem coe_sortMembers (l : List AccountId) :
    (Elections.sortMembers l : Multiset AccountId) = l :=
  Multiset.coe_eq_coe.mpr (List.perm_insertionSort _ l)

theorem shardOffline_settles (s : State) (group : NetworkId × List AccountId) :
    Settles [group] s (Elections.shardOffline s group) := by
  obtain ⟨hf, hb⟩ := foldl_settleMember s.shards s.members group.2 []
  refine ⟨⟨rfl, rfl, rfl, rfl⟩, ?_, rfl, fun network => ?_⟩
  · rw [List.flatMap_singleton]
    exact hf
  · rw [List.flatMap_singleton]
    refine (coe_mutateUnassigned ..).trans ?_
    simp only [membersFor]
    by_cases hn : network = group.1
    · subst hn
      rw [if_pos rfl, if_pos rfl, coe_sortMembers, hb, List.nil_append, ← Multiset.coe_add]
      rfl
    · rw [if_neg hn, if_neg (Ne.symm hn)]
      exact (add_zero _).symm

theorem Settles.trans {groups groups' : List (NetworkId × List AccountId)} {s s' s'' : State}
    (h : Settles groups s s') (h' : Settles groups' s' s'') : Settles (groups ++ groups') s s'' where
  shards := h'.shards.trans h.shards
  tasks := h'.tasks.trans h.tasks
  blockNumber := h'.blockNumber.trans h.blockNumber
  dueHooks := h'.dueHooks.trans h.dueHooks
  networkCounter := h'.networkCounter.trans h.networkCounter
  members := by
    refine (h.members.trans h'.members).congr fun a => ?_
    simp only [Forgotten, h.shards, h.members.registered, List.flatMap_append, List.mem_append]
    rw [← or_and_right, or_comm]
  waiting network := by
    have heligible : eligible s'.members = eligible s.members := by
      funext a
      simp only [eligible, h.members.registered, h.members.online]
    rw [h'.waiting, h.waiting, heligible, List.flatMap_append, List.filter_append,
      ← Multiset.coe_add, add_assoc]

theorem foldl_shardOffline (groups : List (NetworkId × List AccountId)) (s : State) :
    Settles groups s (groups.foldl Elections.shardOffline s) := by
  induction groups generalizing s with
  | nil =>
      refine ⟨⟨rfl, rfl, rfl, rfl⟩, Forgets.of_none _ fun a ha => List.not_mem_nil ha.1, rfl,
        fun network => ?_⟩
      exact (add_zero _).symm
  | cons group groups ih =>
      rw [List.foldl_cons]
      exact (shardOffline_settles s group).trans (ih _)

/-- What is left of the shards pallet's storage when `shard` is taken
offline. -/
def vacate (cfg : Config) (sh : ShardsStore) (shard : ShardId) : ShardsStore :=
  let members := (Shards.getShardMembers cfg sh shard).map Prod.fst
  let sh := { sh with
    shardState := sh.shardState.insert shard .offline
    shardThreshold := sh.shardThreshold.remove shard }
  match sh.shardNetwork.get shard with
  | none => sh
  | some _ =>
      { sh with
        shardNetwork := sh.shardNetwork.remove shard
        shardMembers := sh.shardMembers.removeAll (members.map fun m => (shard, m))
        memberShard := sh.memberShard.removeAll members }

section Vacate

variable (cfg : Config) (sh : ShardsStore) (shard : ShardId)

theorem vacate_shardState (x : ShardId) : (vacate cfg sh shard).shardState.get x
    = if x = shard then some .offline else sh.shardState.get x := by
  rw [← StorageMap.get_insert]
  simp only [vacate]
  split <;> rfl

theorem vacate_shardThreshold (x : ShardId) : (vacate cfg sh shard).shardThreshold.get x
    = if x = shard then none else sh.shardThreshold.get x := by
  rw [← StorageMap.get_remove]
  simp only [vacate]
  split <;> rfl

theorem vacate_shardNetwork (x : ShardId) : (vacate cfg sh shard).shardNetwork.get x
    = if x = shard then none else sh.shardNetwork.get x := by
  simp only [vacate]
  split
  · next hnone =>
      split
      · next hx => rw [hx, hnone]
      · rfl
  · exact StorageMap.get_remove ..

theorem mem_getShardMembers {a : AccountId} :
    a ∈ (Shards.getShardMembers cfg sh shard).map Prod.fst
      ↔ sh.shardMembers.get (shard, a) ≠ none := StorageMap.mem_map_iterPrefix

theorem vacate_shardMembers (x : ShardId) (a : AccountId) :
    (vacate cfg sh shard).shardMembers.get (x, a)
      = if x = shard ∧ sh.shardNetwork.get x ≠ none then none else sh.shardMembers.get (x, a) := by
  simp only [vacate]
  split
  · next hnone =>
      rw [if_neg]
      rintro ⟨rfl, hsome⟩
      exact hsome hnone
  · next network hsome =>
      have hmem : (x, a) ∈ ((Shards.getShardMembers cfg sh shard).map Prod.fst).map
          (fun m => (shard, m)) ↔ x = shard ∧ sh.shardMembers.get (x, a) ≠ none := by
        rw [List.mem_map]
        constructor
        · rintro ⟨b, hb, heq⟩
          obtain ⟨rfl, rfl⟩ := Prod.mk.injEq .. |>.mp heq
          exact ⟨rfl, (mem_getShardMembers cfg sh shard).mp hb⟩
        · rintro ⟨rfl, ha⟩
          exact ⟨a, (mem_getShardMembers cfg sh x).mpr ha, rfl⟩
      rw [StorageMap.get_removeAll]
      by_cases hx : x = shard
      · subst hx
        rw [if_pos (⟨rfl, hsome ▸ Option.some_ne_none network⟩ :
          x = x ∧ sh.shardNetwork.get x ≠ none)]
        by_cases ha : sh.shardMembers.get (x, a) = none
        · rw [ha, ite_self]
        · rw [if_pos (hmem.mpr ⟨rfl, ha⟩)]
      · rw [if_neg fun hno => hx (hmem.mp hno).1, if_neg fun hno => hx hno.1]

theorem vacate_memberShard (a : AccountId) : (vacate cfg sh shard).memberShard.get a
    = if sh.shardNetwork.get shard ≠ none ∧ sh.shardMembers.get (shard, a) ≠ none then none
      else sh.memberShard.get a := by
  simp only [vacate]
  split
  · next hnone => rw [if_neg fun hsome => hsome.1 hnone]
  · next network hsome =>
      rw [StorageMap.get_removeAll]
      by_cases ha : sh.shardMembers.get (shard, a) = none
      · rw [if_neg fun hno => (mem_getShardMembers cfg sh shard).mp hno ha,
          if_neg fun hno => hno.2 ha]
      · rw [if_pos ((mem_getShardMembers cfg sh shard).mpr ha),
          if_pos ⟨hsome ▸ Option.some_ne_none network, ha⟩]

/-- Everything else in the pallet stays. -/
theorem vacate_rest : (vacate cfg sh shard).shardIdCounter = sh.shardIdCounter ∧
    (vacate cfg sh shard).createdShards = sh.createdShards ∧
    (vacate cfg sh shard).shardMembersOnline = sh.shardMembersOnline ∧
    (vacate cfg sh shard).shardCommitment = sh.shardCommitment := by
  simp only [vacate]
  split <;> exact ⟨rfl, rfl, rfl, rfl⟩

end Vacate

section VacateAll

variable (cfg : Config)

theorem foldl_vacate_shardState (shards : List ShardId) (sh : ShardsStore) (x : ShardId) :
    (shards.foldl (vacate cfg) sh).shardState.get x
      = if x ∈ shards then some .offline else sh.shardState.get x := by
  induction shards generalizing sh with
  | nil => rw [if_neg List.not_mem_nil]; rfl
  | cons shard shards ih =>
      rw [List.foldl_cons, ih, vacate_shardState]
      by_cases hx : x = shard <;> simp [hx]

theorem foldl_vacate_shardThreshold (shards : List ShardId) (sh : ShardsStore) (x : ShardId) :
    (shards.foldl (vacate cfg) sh).shardThreshold.get x
      = if x ∈ shards then none else sh.shardThreshold.get x := by
  induction shards generalizing sh with
  | nil => rw [if_neg List.not_mem_nil]; rfl
  | cons shard shards ih =>
      rw [List.foldl_cons, ih, vacate_shardThreshold]
      by_cases hx : x = shard <;> simp [hx]

theorem foldl_vacate_shardNetwork (shards : List ShardId) (sh : ShardsStore) (x : ShardId) :
    (shards.foldl (vacate cfg) sh).shardNetwork.get x
      = if x ∈ shards then none else sh.shardNetwork.get x := by
  induction shards generalizing sh with
  | nil => rw [if_neg List.not_mem_nil]; rfl
  | cons shard shards ih =>
      rw [List.foldl_cons, ih, vacate_shardNetwork]
      by_cases hx : x = shard <;> simp [hx]

theorem foldl_vacate_shardMembers (shards : List ShardId) (sh : ShardsStore) (x : ShardId)
    (a : AccountId) : (shards.foldl (vacate cfg) sh).shardMembers.get (x, a)
      = if x ∈ shards ∧ sh.shardNetwork.get x ≠ none then none
        else sh.shardMembers.get (x, a) := by
  induction shards generalizing sh with
  | nil => rw [if_neg fun hno => List.not_mem_nil hno.1]; rfl
  | cons shard shards ih =>
      rw [List.foldl_cons, ih, vacate_shardMembers, vacate_shardNetwork]
      by_cases hx : x = shard <;> simp [hx]

theorem foldl_vacate_memberShard (shards : List ShardId) (sh : ShardsStore) (a : AccountId) :
    (shards.foldl (vacate cfg) sh).memberShard.get a
      = if ∃ x ∈ shards, sh.shardNetwork.get x ≠ none ∧ sh.shardMembers.get (x, a) ≠ none
        then none else sh.memberShard.get a := by
  induction shards generalizing sh with
  | nil => simp
  | cons shard shards ih =>
      rw [List.foldl_cons, ih, vacate_memberShard]
      by_cases hself : sh.shardNetwork.get shard ≠ none ∧ sh.shardMembers.get (shard, a) ≠ none
      · rw [if_pos hself, ite_self, if_pos ⟨shard, List.mem_cons_self .., hself⟩]
      · rw [if_neg hself]
        refine if_congr ⟨?_, ?_⟩ rfl rfl
        · rintro ⟨x, hx, hnet, hmem⟩
          rw [vacate_shardNetwork] at hnet
          have hne : x ≠ shard := by
            rintro rfl
            exact hnet (if_pos rfl)
          rw [if_neg hne] at hnet
          rw [vacate_shardMembers, if_neg fun hno => hne hno.1] at hmem
          exact ⟨x, List.mem_cons_of_mem _ hx, hnet, hmem⟩
        · rintro ⟨x, hx, hnet, hmem⟩
          have hne : x ≠ shard := by
            rintro rfl
            exact hself ⟨hnet, hmem⟩
          refine ⟨x, (List.mem_cons.mp hx).resolve_left hne, ?_, ?_⟩
          · rwa [vacate_shardNetwork, if_neg hne]
          · rwa [vacate_shardMembers, if_neg fun hno => hne hno.1]

theorem foldl_vacate_rest (shards : List ShardId) (sh : ShardsStore) :
    (shards.foldl (vacate cfg) sh).shardIdCounter = sh.shardIdCounter ∧
    (shards.foldl (vacate cfg) sh).createdShards = sh.createdShards ∧
    (shards.foldl (vacate cfg) sh).shardMembersOnline = sh.shardMembersOnline ∧
    (shards.foldl (vacate cfg) sh).shardCommitment = sh.shardCommitment := by
  induction shards generalizing sh with
  | nil => exact ⟨rfl, rfl, rfl, rfl⟩
  | cons shard shards ih =>
      obtain ⟨h₁, h₂, h₃, h₄⟩ := ih (vacate cfg sh shard)
      obtain ⟨g₁, g₂, g₃, g₄⟩ := vacate_rest cfg sh shard
      exact ⟨h₁.trans g₁, h₂.trans g₂, h₃.trans g₃, h₄.trans g₄⟩

end VacateAll

/-- The crews that were serving `network`, as storage has them. -/
def crewsFor (sh : ShardsStore) (shards : List ShardId) (network : NetworkId) :
    Multiset AccountId :=
  (shards : Multiset ShardId).bind fun x =>
    if sh.shardNetwork.get x = some network then (sh.shardMembers.prefixKeys x).val else 0

theorem crewsFor_cons (sh : ShardsStore) (shard : ShardId) (shards : List ShardId)
    (network : NetworkId) : crewsFor sh (shard :: shards) network
      = crewsFor sh [shard] network + crewsFor sh shards network := by
  rw [crewsFor, ← List.singleton_append, ← Multiset.coe_add, Multiset.add_bind]
  rfl

/-- First pass of `remove_shards_offline`. -/
structure Vacates (cfg : Config) (ids : List ShardId) (acc acc' : State × Groups) : Prop where
  shards : acc'.1.shards = ids.foldl (vacate cfg) acc.1.shards
  members : acc'.1.members = acc.1.members
  elections : acc'.1.elections = acc.1.elections
  blockNumber : acc'.1.blockNumber = acc.1.blockNumber
  dueHooks : acc'.1.dueHooks = acc.1.dueHooks
  groups : ∀ network, (acc'.2.getD network [] : Multiset AccountId)
    = acc.2.getD network [] + crewsFor acc.1.shards ids network

theorem takeOffline_vacates {cfg : Config} {networks : Networks} {acc acc' : State × Groups}
    {shard : ShardId} (h : Shards.takeOffline cfg networks acc shard = some acc') :
    Vacates cfg [shard] acc acc' := by
  obtain ⟨s, updates⟩ := acc
  simp only [Shards.takeOffline] at h
  split at h
  · next hnone =>
      cases h
      refine ⟨?_, rfl, rfl, rfl, rfl, fun network => ?_⟩
      · simp only [List.foldl_cons, List.foldl_nil, vacate, hnone]
      · rw [crewsFor, Multiset.coe_singleton, Multiset.singleton_bind, if_neg]
        · exact (add_zero _).symm
        · rw [hnone]
          exact fun hno => Option.some_ne_none _ hno.symm
  · next serving hsome =>
      split at h
      · cases h
      · cases h
        refine ⟨?_, rfl, rfl, rfl, rfl, fun network => ?_⟩
        · simp only [List.foldl_cons, List.foldl_nil, vacate, hsome]
          rfl
        · rw [crewsFor, Multiset.coe_singleton, Multiset.singleton_bind, hsome, Groups.extend,
            StorageMap.getD_insert]
          by_cases hn : network = serving
          · rw [if_pos hn, if_pos (congrArg some hn.symm), hn, ← Multiset.coe_add]
            exact congrArg _ (StorageMap.coe_iterPrefix ..)
          · rw [if_neg hn, if_neg fun heq => hn (Option.some.inj heq).symm]
            exact (add_zero _).symm

theorem foldlM_takeOffline {cfg : Config} {networks : Networks} {shards : List ShardId}
    (hnodup : shards.Nodup) {acc acc' : State × Groups}
    (h : shards.foldlM (Shards.takeOffline cfg networks) acc = some acc') :
    Vacates cfg shards acc acc' := by
  induction shards generalizing acc with
  | nil =>
      cases h
      exact ⟨rfl, rfl, rfl, rfl, rfl, fun _ => (add_zero _).symm⟩
  | cons shard shards ih =>
      obtain ⟨acc₁, h₁, h⟩ := Option.bind_eq_some_iff.mp h
      have hfirst := takeOffline_vacates h₁
      have hrest := ih hnodup.of_cons h
      have hshards : acc₁.1.shards = vacate cfg acc.1.shards shard := hfirst.shards
      refine ⟨by rw [hrest.shards, hshards]; rfl, hrest.members.trans hfirst.members,
        hrest.elections.trans hfirst.elections, hrest.blockNumber.trans hfirst.blockNumber,
        hrest.dueHooks.trans hfirst.dueHooks, fun network => ?_⟩
      -- The other shards are as they were: `shard` is taken only once.
      have hother : crewsFor acc₁.1.shards shards network
          = crewsFor acc.1.shards shards network := by
        refine Multiset.bind_congr fun x hx => ?_
        have hne : x ≠ shard := by
          rintro rfl
          exact hnodup.notMem hx
        rw [hshards, vacate_shardNetwork, if_neg hne]
        refine if_congr Iff.rfl (congrArg Finset.val ?_) rfl
        ext a
        rw [StorageMap.mem_prefixKeys, StorageMap.mem_prefixKeys, vacate_shardMembers,
          if_neg fun hno => hne hno.1]
      rw [hrest.groups, hfirst.groups, hother, add_assoc, ← crewsFor_cons]

theorem flatMap_membersFor {groups : List (NetworkId × List AccountId)} {network : NetworkId}
    {members : List AccountId} (hnodup : (groups.map Prod.fst).Nodup)
    (hmem : (network, members) ∈ groups) : groups.flatMap (membersFor network) = members := by
  induction groups with
  | nil => cases hmem
  | cons group groups ih =>
      rw [List.map_cons, List.nodup_cons] at hnodup
      rw [List.flatMap_cons]
      rcases List.mem_cons.mp hmem with rfl | hmem
      · have hnil : groups.flatMap (membersFor network) = [] := by
          refine List.flatMap_eq_nil_iff.mpr fun group hgroup => if_neg ?_
          intro heq
          exact hnodup.1 (List.mem_map.mpr ⟨group, hgroup, heq⟩)
        rw [hnil, List.append_nil]
        exact if_pos rfl
      · have hne : group.1 ≠ network := by
          intro heq
          exact hnodup.1 (List.mem_map.mpr ⟨_, hmem, heq.symm⟩)
        rw [ih hnodup.2 hmem, membersFor, if_neg hne, List.nil_append]

theorem flatMap_toList (groups : Groups) (network : NetworkId) :
    groups.toList.flatMap (membersFor network) = groups.getD network [] := by
  cases hget : groups.get network with
  | some members =>
      rw [StorageMap.getD, hget]
      exact flatMap_membersFor (StorageMap.iter_keys_nodup ..) (StorageMap.mem_iter.mpr hget)
  | none =>
      rw [StorageMap.getD, hget]
      refine List.flatMap_eq_nil_iff.mpr fun group hgroup => if_neg ?_
      rintro rfl
      have hsome : groups.get group.1 = some group.2 := StorageMap.mem_iter.mp hgroup
      rw [hget] at hsome
      cases hsome

theorem mem_flatMap_toList {groups : Groups} {a : AccountId} :
    a ∈ groups.toList.flatMap Prod.snd ↔ ∃ network, a ∈ groups.getD network [] := by
  rw [List.mem_flatMap]
  constructor
  · rintro ⟨⟨network, members⟩, hmem, ha⟩
    have hget : groups.get network = some members := StorageMap.mem_iter.mp hmem
    exact ⟨network, by rw [StorageMap.getD, hget]; exact ha⟩
  · rintro ⟨network, ha⟩
    cases hget : groups.get network with
    | none =>
        rw [StorageMap.getD, hget] at ha
        cases ha
    | some members =>
        rw [StorageMap.getD, hget] at ha
        exact ⟨(network, members), StorageMap.mem_iter.mpr hget, ha⟩

section Removal

variable {cfg : Config} {ids : List ShardId} {s s₁ : State} {updates : Groups}

/-- The groups to settle are the crews, by network. -/
theorem Vacates.getD_groups (h : Vacates cfg ids (s, ∅) (s₁, updates)) (network : NetworkId) :
    (updates.getD network [] : Multiset AccountId) = s.roster.dissolved ids network :=
  (h.groups network).trans (zero_add _)

theorem Vacates.mem_groups (h : Vacates cfg ids (s, ∅) (s₁, updates)) {a : AccountId} :
    a ∈ updates.toList.flatMap Prod.snd ↔ s.roster.Gone ids a := by
  rw [mem_flatMap_toList]
  constructor
  · rintro ⟨network, ha⟩
    rw [← Multiset.mem_coe, h.getD_groups, Roster.mem_dissolved] at ha
    obtain ⟨x, hx, hnet, hcrew⟩ := ha
    exact ⟨x, hx, hnet ▸ Option.some_ne_none network, hcrew⟩
  · rintro ⟨x, hx, hnet, hcrew⟩
    obtain ⟨network, hnet⟩ := Option.ne_none_iff_exists'.mp hnet
    refine ⟨network, ?_⟩
    rw [← Multiset.mem_coe, h.getD_groups, Roster.mem_dissolved]
    exact ⟨x, hx, hnet, hcrew⟩

theorem Vacates.seat (h : Vacates cfg ids (s, ∅) (s₁, updates)) (a : AccountId) :
    s₁.shards.memberShard.get a = (s.roster.dissolve ids).seat a := by
  refine (congrArg (fun sh : ShardsStore => sh.memberShard.get a) h.shards).trans ?_
  rw [foldl_vacate_memberShard]
  simp only [Roster.dissolve, Roster.Gone, State.roster, view, StorageMap.mem_prefixKeys]

theorem Vacates.crew (h : Vacates cfg ids (s, ∅) (s₁, updates)) (x : ShardId) :
    s₁.shards.shardMembers.prefixKeys x = (s.roster.dissolve ids).crew x := by
  have hget : ∀ a, s₁.shards.shardMembers.get (x, a)
      = if x ∈ ids ∧ s.shards.shardNetwork.get x ≠ none then none
        else s.shards.shardMembers.get (x, a) := fun a =>
    (congrArg (fun sh : ShardsStore => sh.shardMembers.get (x, a)) h.shards).trans
      (foldl_vacate_shardMembers ..)
  ext a
  rw [StorageMap.mem_prefixKeys, hget]
  by_cases hx : x ∈ ids ∧ s.shards.shardNetwork.get x ≠ none
  · have hcrew : (s.roster.dissolve ids).crew x = ∅ := if_pos hx
    rw [if_pos hx, hcrew]
    exact ⟨fun hno => absurd rfl hno, fun ha => absurd ha (Finset.notMem_empty a)⟩
  · have hcrew : (s.roster.dissolve ids).crew x = s.shards.shardMembers.prefixKeys x := if_neg hx
    rw [if_neg hx, hcrew, StorageMap.mem_prefixKeys]

end Removal

/-- An account is known with all its data or not at all. -/
structure Known (m : MembersStore) : Prop where
  peerId : ∀ a, m.memberPeerId.get a = none ↔ m.memberNetwork.get a = none
  publicKey : ∀ a, m.memberPublicKey.get a = none ↔ m.memberNetwork.get a = none

theorem Forgets.known {gone : AccountId → Prop} [DecidablePred gone] {m m' : MembersStore}
    (h : Forgets gone m m') (hk : Known m) : Known m' := by
  refine ⟨fun a => ?_, fun a => ?_⟩
  · rw [h.peerId, h.network]
    split
    · exact iff_of_true rfl rfl
    · exact hk.peerId a
  · rw [h.publicKey, h.network]
    split
    · exact iff_of_true rfl rfl
    · exact hk.publicKey a

/-- Every member of an online shard has said that it is ready. -/
def Ready (sh : ShardsStore) : Prop :=
  ∀ shard a status, sh.shardState.get shard = some .online →
    sh.shardMembers.get (shard, a) = some status → status = .ready

theorem Ready.mono {sh sh' : ShardsStore} (h : Ready sh)
    (hstate : ∀ {x}, sh'.shardState.get x = some .online → sh.shardState.get x = some .online)
    (hmembers : ∀ {x a status}, sh'.shardMembers.get (x, a) = some status →
      sh.shardMembers.get (x, a) = some status) : Ready sh' :=
  fun x a status hs ha => h x a status (hstate hs) (hmembers ha)

/-- What stays as it was between elections, next to the roster. -/
structure Kept (s s' : State) : Prop where
  known : Known s.members → Known s'.members
  ready : Ready s.shards → Ready s'.shards
  unserved : ∀ {x}, s.roster.shardNetwork x = none → s'.roster.shardNetwork x = none
  shardIdCounter : s'.shards.shardIdCounter = s.shards.shardIdCounter
  createdShards : s'.shards.createdShards = s.shards.createdShards
  blockNumber : s'.blockNumber = s.blockNumber
  dueHooks : s'.dueHooks = s.dueHooks

theorem Kept.refl (s : State) : Kept s s := ⟨id, id, id, rfl, rfl, rfl, rfl⟩

theorem Kept.trans {s s' s'' : State} (h : Kept s s') (h' : Kept s' s'') : Kept s s'' where
  known hk := h'.known (h.known hk)
  ready hr := h'.ready (h.ready hr)
  unserved hx := h'.unserved (h.unserved hx)
  shardIdCounter := h'.shardIdCounter.trans h.shardIdCounter
  createdShards := h'.createdShards.trans h.createdShards
  blockNumber := h'.blockNumber.trans h.blockNumber
  dueHooks := h'.dueHooks.trans h.dueHooks

/-- No heartbeat came or timed out. -/
structure Still (s s' : State) : Prop extends Kept s s' where
  heartbeat : s'.members.heartbeat = s.members.heartbeat
  timedOut : s'.members.timedOut = s.members.timedOut

theorem Still.refl (s : State) : Still s s := ⟨.refl s, rfl, rfl⟩

theorem Still.trans {s s' s'' : State} (h : Still s s') (h' : Still s' s'') : Still s s'' where
  toKept := h.toKept.trans h'.toKept
  heartbeat := h'.heartbeat.trans h.heartbeat
  timedOut := h'.timedOut.trans h.timedOut

theorem removeShardsOffline_roster {cfg : Config} {networks : Networks} {s s' : State}
    {ids : List ShardId} (hnodup : ids.Nodup)
    (h : Shards.removeShardsOffline s cfg networks ids = some s') :
    s'.roster = s.roster.dissolve ids ∧ Still s s' := by
  obtain ⟨⟨s₁, updates⟩, h₁, h⟩ := Option.bind_eq_some_iff.mp h
  cases h
  have hpass : Vacates cfg ids (s, ∅) (s₁, updates) := foldlM_takeOffline hnodup h₁
  have hsettle := foldl_shardOffline updates.toList s₁
  have hshards : (updates.toList.foldl Elections.shardOffline s₁).shards
      = ids.foldl (vacate cfg) s.shards := hsettle.shards.trans hpass.shards
  have hmembers : s₁.members = s.members := hpass.members
  obtain ⟨hcounter, hcreated, honline, -⟩ := foldl_vacate_rest cfg ids s.shards
  have hforgets : Forgets (fun a => s.roster.Gone ids a ∧ s.roster.registered a = false)
      s.members (updates.toList.foldl Elections.shardOffline s₁).members := by
    have hf := hsettle.members
    rw [hmembers] at hf
    refine hf.congr fun a => ?_
    simp only [Forgotten, hpass.mem_groups]
    -- A member of a dissolved shard has no seat after the first pass.
    refine and_congr_right fun hgone => ⟨And.left, fun hreg => ⟨hreg, ?_⟩⟩
    rw [hpass.seat]
    exact if_pos hgone
  have hnetwork : ∀ x, (updates.toList.foldl Elections.shardOffline s₁).shards.shardNetwork.get x
      = if x ∈ ids then none else s.shards.shardNetwork.get x := fun x =>
    (congrArg (fun sh : ShardsStore => sh.shardNetwork.get x) hshards).trans
      (foldl_vacate_shardNetwork ..)
  have hkept : Kept s (Shards.depositEvent (updates.toList.foldl Elections.shardOffline s₁)
      (.shardsOffline ids)) := by
    refine ⟨hforgets.known, fun hr => ?_, fun {x} hx => ?_,
      (congrArg ShardsStore.shardIdCounter hshards).trans hcounter,
      (congrArg ShardsStore.createdShards hshards).trans hcreated,
      hsettle.blockNumber.trans hpass.blockNumber, hsettle.dueHooks.trans hpass.dueHooks⟩
    · have hvacated : Ready (ids.foldl (vacate cfg) s.shards) := by
        refine hr.mono (fun {x} hx => ?_) fun {x a status} ha => ?_
        · rw [foldl_vacate_shardState] at hx
          split at hx
          · cases hx
          · exact hx
        · rw [foldl_vacate_shardMembers] at ha
          split at ha
          · cases ha
          · exact ha
      rw [← hshards] at hvacated
      exact hvacated
    · refine (hnetwork x).trans ?_
      rw [show s.shards.shardNetwork.get x = none from hx, ite_self]
  refine ⟨Roster.ext ?_ ?_ ?_ ?_ ?_ ?_ ?_ ?_ ?_ ?_, hkept, hforgets.heartbeat, hforgets.timedOut⟩
  · exact funext hforgets.network
  · exact congrArg StorageMap.containsKey hforgets.registered
  · exact congrArg StorageMap.containsKey hforgets.online
  · funext network
    refine (hsettle.waiting network).trans ?_
    rw [flatMap_toList, hmembers]
    refine congrArg₂ _ (congrArg (fun e : ElectionsStore =>
      (e.unassigned.getD network [] : Multiset AccountId)) hpass.elections) ?_
    rw [← hpass.getD_groups, Multiset.filter_coe]
    simp only [Bool.decide_eq_true]
    rfl
  · funext a
    exact (congrArg (fun sh : ShardsStore => sh.memberShard.get a) hsettle.shards).trans
      (hpass.seat a)
  · funext x
    exact (congrArg (fun sh : ShardsStore => sh.shardMembers.prefixKeys x) hsettle.shards).trans
      (hpass.crew x)
  · exact funext hnetwork
  · funext x
    exact (congrArg (fun sh : ShardsStore => sh.shardState.get x) hshards).trans
      (foldl_vacate_shardState ..)
  · funext x
    exact (congrArg (fun sh : ShardsStore => sh.shardThreshold.get x) hshards).trans
      (foldl_vacate_shardThreshold ..)
  · funext x
    exact congrArg (fun online : StorageMap ShardId Nat => online.getD x 0)
      ((congrArg ShardsStore.shardMembersOnline hshards).trans honline)

end Chain

end Timechain
