import Timechain.ChainMembership
import Timechain.ChainTasks
import Timechain.TasksBatching

/-!
# What a call does to the shards

`Act` says it once for all calls: what becomes of the status, network,
key and members of the shards, of the timers of their key generation and
of the ops queued for their gateways.

`Closes` is the part with many ways to it: members going offline, a
timeout and force all take shards off their networks by
`remove_shards_offline`.
-/

namespace Timechain

namespace Chain

open Relation (ReflTransGen)

/-! ## Shards taken off their networks -/

/-- Some shards are taken off their networks, and nothing else happens to
shards. An op that unregisters a key is pushed for a shard that loses its
network. -/
structure Sheds (s s' : State) : Prop where
  status : ∀ x, s'.shards.shardState.get x = s.shards.shardState.get x ∨
    s'.shards.shardState.get x = some .offline
  network : ∀ x, s'.shards.shardNetwork.get x = s.shards.shardNetwork.get x ∨
    s'.shards.shardNetwork.get x = none
  member : ∀ x a, s'.shards.shardMembers.get (x, a) = s.shards.shardMembers.get (x, a) ∨
    s'.shards.shardMembers.get (x, a) = none
  emptied : ∀ x, s'.shards.shardNetwork.get x = none →
    s.shards.shardNetwork.get x = none ∨ ∀ a, s'.shards.shardMembers.get (x, a) = none
  seat : ∀ a x, s'.shards.memberShard.get a = some x → s.shards.memberShard.get a = some x ∧
    s'.shards.shardMembers.get (x, a) = s.shards.shardMembers.get (x, a)
  commitment : s'.shards.shardCommitment = s.shards.shardCommitment
  counter : s'.shards.shardIdCounter = s.shards.shardIdCounter
  created : s'.shards.createdShards = s.shards.createdShards
  timeout : s'.shards.dkgTimeout = s.shards.dkgTimeout
  timeoutCounter : s'.shards.dkgTimeoutCounter = s.shards.dkgTimeoutCounter
  ops : ∃ new, s'.tasks.pushedOps = s.tasks.pushedOps ++ new ∧
    ∀ push ∈ new, ∀ key, push.2 = .unregisterShard key →
      ∃ x, s.shards.shardNetwork.get x = some push.1 ∧
        Shards.tssPublicKey s.shards x = some key ∧ s'.shards.shardNetwork.get x = none
  blockNumber : s'.blockNumber = s.blockNumber
  dueHooks : s'.dueHooks = s.dueHooks

/-- In the end, only shards without a network have been put offline. -/
structure Closes (s s' : State) : Prop extends Sheds s s' where
  closed : ∀ x, s'.shards.shardState.get x = some .offline →
    s.shards.shardState.get x = some .offline ∨ s'.shards.shardNetwork.get x = none

section Sheds

variable {cfg : Config} {networks : Networks} {s s' s'' : State}

theorem Sheds.of_eq (hshards : s'.shards = s.shards)
    (hops : s'.tasks.pushedOps = s.tasks.pushedOps) (hblock : s'.blockNumber = s.blockNumber)
    (hhooks : s'.dueHooks = s.dueHooks) : Sheds s s' where
  status x := Or.inl (by rw [hshards])
  network x := Or.inl (by rw [hshards])
  member x a := Or.inl (by rw [hshards])
  emptied x hx := Or.inl (hshards ▸ hx)
  seat a x hx := by
    rw [hshards] at hx ⊢
    exact ⟨hx, rfl⟩
  commitment := by rw [hshards]
  counter := by rw [hshards]
  created := by rw [hshards]
  timeout := by rw [hshards]
  timeoutCounter := by rw [hshards]
  ops := ⟨[], by rw [hops, List.append_nil], by simp⟩
  blockNumber := hblock
  dueHooks := hhooks

theorem Closes.of_eq (hshards : s'.shards = s.shards)
    (hops : s'.tasks.pushedOps = s.tasks.pushedOps) (hblock : s'.blockNumber = s.blockNumber)
    (hhooks : s'.dueHooks = s.dueHooks) : Closes s s' :=
  ⟨.of_eq hshards hops hblock hhooks, fun _ hx => Or.inl (hshards ▸ hx)⟩

theorem Sheds.trans (h : Sheds s s') (h' : Sheds s' s'') : Sheds s s'' where
  status x := by
    rcases h'.status x with heq | hoff
    · rw [heq]
      exact h.status x
    · exact Or.inr hoff
  network x := by
    rcases h'.network x with heq | hnone
    · rw [heq]
      exact h.network x
    · exact Or.inr hnone
  member x a := by
    rcases h'.member x a with heq | hnone
    · rw [heq]
      exact h.member x a
    · exact Or.inr hnone
  emptied x hx := by
    rcases h'.emptied x hx with hnone | hempty
    · refine (h.emptied x hnone).imp_right fun hempty a => ?_
      rcases h'.member x a with heq | hgone
      · exact heq.trans (hempty a)
      · exact hgone
    · exact Or.inr hempty
  seat a x hx := by
    obtain ⟨hx', heq'⟩ := h'.seat a x hx
    obtain ⟨hx, heq⟩ := h.seat a x hx'
    exact ⟨hx, heq'.trans heq⟩
  commitment := h'.commitment.trans h.commitment
  counter := h'.counter.trans h.counter
  created := h'.created.trans h.created
  timeout := h'.timeout.trans h.timeout
  timeoutCounter := h'.timeoutCounter.trans h.timeoutCounter
  blockNumber := h'.blockNumber.trans h.blockNumber
  dueHooks := h'.dueHooks.trans h.dueHooks
  ops := by
    obtain ⟨new, heq, hnew⟩ := h.ops
    obtain ⟨new', heq', hnew'⟩ := h'.ops
    refine ⟨new ++ new', by rw [heq', heq, List.append_assoc], fun push hpush key hkey => ?_⟩
    rcases List.mem_append.mp hpush with hpush | hpush
    · obtain ⟨x, hnet, hx, hgone⟩ := hnew push hpush key hkey
      refine ⟨x, hnet, hx, ?_⟩
      rcases h'.network x with heq | hnone
      · exact heq.trans hgone
      · exact hnone
    · obtain ⟨x, hnet, hx, hgone⟩ := hnew' push hpush key hkey
      refine ⟨x, ?_, ?_, hgone⟩
      · rcases h.network x with heq | hnone
        · rw [← heq]
          exact hnet
        · rw [hnone] at hnet
          cases hnet
      · rw [Shards.tssPublicKey, ← h.commitment]
        exact hx

theorem Closes.trans (h : Closes s s') (h' : Closes s' s'') : Closes s s'' := by
  refine ⟨h.toSheds.trans h'.toSheds, fun x hx => ?_⟩
  rcases h'.closed x hx with hoff | hnone
  · refine (h.closed x hoff).imp_right fun hnone => ?_
    rcases h'.network x with heq | hgone
    · exact heq.trans hnone
    · exact hgone
  · exact Or.inr hnone

theorem takeOffline_closes {acc acc' : State × Groups} {shard : ShardId}
    (h : Shards.takeOffline cfg networks acc shard = some acc') : Closes acc.1 acc'.1 := by
  have hvacates := takeOffline_vacates h
  have hshards : acc'.1.shards = vacate cfg acc.1.shards shard := hvacates.shards
  have htimers : (vacate cfg acc.1.shards shard).dkgTimeout = acc.1.shards.dkgTimeout ∧
      (vacate cfg acc.1.shards shard).dkgTimeoutCounter = acc.1.shards.dkgTimeoutCounter := by
    simp only [vacate]
    split <;> exact ⟨rfl, rfl⟩
  obtain ⟨hcounter, hcreated, -, hcommitment⟩ := vacate_rest cfg acc.1.shards shard
  have hgone : acc'.1.shards.shardNetwork.get shard = none := by
    rw [hshards, vacate_shardNetwork, if_pos rfl]
  refine ⟨⟨fun x => ?_, fun x => ?_, fun x a => ?_, fun x hx => ?_, fun a x hx => ?_,
    hshards ▸ hcommitment, hshards ▸ hcounter, hshards ▸ hcreated, hshards ▸ htimers.1,
    hshards ▸ htimers.2, ?_, hvacates.blockNumber, hvacates.dueHooks⟩, fun x hx => ?_⟩
  · rw [hshards, vacate_shardState]
    split
    · exact Or.inr rfl
    · exact Or.inl rfl
  · rw [hshards, vacate_shardNetwork]
    split
    · exact Or.inr rfl
    · exact Or.inl rfl
  · rw [hshards, vacate_shardMembers]
    split
    · exact Or.inr rfl
    · exact Or.inl rfl
  · rw [hshards, vacate_shardNetwork] at hx
    split at hx
    · next heq =>
        subst heq
        refine or_iff_not_imp_left.mpr fun hnet a => ?_
        rw [hshards, vacate_shardMembers, if_pos ⟨rfl, hnet⟩]
    · exact Or.inl hx
  · rw [hshards, vacate_memberShard] at hx
    split at hx
    · cases hx
    · next hno =>
        refine ⟨hx, ?_⟩
        rw [hshards, vacate_shardMembers]
        split
        · next heq =>
            obtain ⟨rfl, hnet⟩ := heq
            exact (not_not.mp fun hmem => hno ⟨hnet, hmem⟩).symm
        · rfl
  · obtain ⟨s, updates⟩ := acc
    simp only [Shards.takeOffline] at h
    split at h
    · cases h
      exact ⟨[], (List.append_nil _).symm, by simp⟩
    · next network hnetwork =>
        split at h
        · cases h
        · cases h
          refine ⟨_, Tasks.shardOffline_pushedOps .., fun push hpush key hkey => ?_⟩
          dsimp only [State.tasksEnv] at hpush
          split at hpush
          · next key' hfind =>
              obtain rfl := List.mem_singleton.mp hpush
              cases hkey
              exact ⟨shard, hnetwork, hfind, hgone⟩
          · cases hpush
  · rw [hshards, vacate_shardState] at hx
    split at hx
    · next heq => exact Or.inr (heq ▸ hgone)
    · exact Or.inl hx

theorem foldlM_takeOffline_closes {shards : List ShardId} {acc acc' : State × Groups}
    (h : shards.foldlM (Shards.takeOffline cfg networks) acc = some acc') :
    Closes acc.1 acc'.1 := by
  induction shards generalizing acc with
  | nil =>
      cases h
      exact .of_eq rfl rfl rfl rfl
  | cons shard shards ih =>
      obtain ⟨acc₁, h₁, h⟩ := Option.bind_eq_some_iff.mp h
      exact (takeOffline_closes h₁).trans (ih h)

theorem removeShardsOffline_closes {shards : List ShardId}
    (h : Shards.removeShardsOffline s cfg networks shards = some s') : Closes s s' := by
  obtain ⟨⟨s₁, updates⟩, h₁, h⟩ := Option.bind_eq_some_iff.mp h
  cases h
  have hsettle := foldl_shardOffline updates.toList s₁
  have hsettled : Closes s₁ (updates.toList.foldl Elections.shardOffline s₁) :=
    .of_eq hsettle.shards (congrArg (fun t : Tasks.State => t.pushedOps) hsettle.tasks)
      hsettle.blockNumber hsettle.dueHooks
  have hall := (foldlM_takeOffline_closes h₁).trans hsettled
  exact ⟨⟨hall.status, hall.network, hall.member, hall.emptied, hall.seat, hall.commitment,
    hall.counter, hall.created, hall.timeout, hall.timeoutCounter, hall.ops, hall.blockNumber,
    hall.dueHooks⟩, hall.closed⟩

theorem membersOffline_closes {group : NetworkId × List AccountId}
    (hcount : ∀ x, s.roster.count x < 2 ^ 16)
    (h : Members.membersOffline cfg networks s group = some s') : Closes s s' := by
  generalize hs₀ : ({ s with
      members := { s.members with
        memberOnline := s.members.memberOnline.removeAll group.2
        events := s.members.events ++ [.membersOffline group.2] }
      elections := Elections.mutateUnassigned s.elections group.1 fun unassigned =>
        unassigned.filter fun m => !group.2.contains m } : State) = s₀
  have h : Shards.membersOffline s₀ cfg networks group.2 = some s' := hs₀ ▸ h
  have hcount₀ : ∀ x, s₀.roster.count x < 2 ^ 16 := hs₀ ▸ hcount
  have hfirst : Closes s s₀ := hs₀ ▸ Closes.of_eq rfl rfl rfl rfl
  refine hfirst.trans ?_
  have hnoted := foldl_noteOffline s₀ group.2
  simp only [Shards.membersOffline] at h
  generalize group.2.foldl (Shards.noteOffline s₀.shards) (∅, []) = acc at h hnoted
  obtain ⟨updates, removed⟩ := acc
  have hstate := fun x => (write_noted hnoted hcount₀ x).2
  have hnodup := hnoted.nodup
  obtain ⟨online, state, hrest⟩ := foldl_writeUpdate_rest (updates.iter id) s₀.shards
  dsimp only at h hnodup
  rw [hrest] at h hstate
  dsimp only at hstate
  have hwritten : Sheds s₀ { s₀ with shards :=
      { s₀.shards with shardMembersOnline := online, shardState := state } } := by
    refine ⟨fun x => ?_, fun _ => Or.inl rfl, fun _ _ => Or.inl rfl, fun _ hx => Or.inl hx,
      fun _ _ hx => ⟨hx, rfl⟩, rfl, rfl, rfl, rfl, rfl, ⟨[], (List.append_nil _).symm, by simp⟩,
      rfl, rfl⟩
    dsimp only
    rw [hstate x]
    split
    · exact Or.inr rfl
    · exact Or.inl rfl
  split at h
  · next hnil =>
      cases h
      refine ⟨hwritten, fun x hx => Or.inl ?_⟩
      dsimp only at hx
      rwa [hstate x, List.isEmpty_iff.mp hnil, if_neg List.not_mem_nil] at hx
  · have hclosed := removeShardsOffline_closes h
    refine ⟨hwritten.trans hclosed.toSheds, fun x hx => ?_⟩
    rcases hclosed.closed x hx with hoff | hnone
    · dsimp only at hoff
      rw [hstate x] at hoff
      split at hoff
      · next hmem =>
          have hnet := congrArg (fun r : Roster AccountId NetworkId ShardId => r.shardNetwork x)
            (removeShardsOffline_roster hnodup h).1
          exact Or.inr (hnet.trans (if_pos hmem))
      · exact Or.inl hoff
    · exact Or.inr hnone

theorem foldlM_membersOffline_closes {groups : List (NetworkId × List AccountId)}
    (h : groups.foldlM (Members.membersOffline cfg networks) s = some s')
    (hcount : ∀ x, s.roster.count x < 2 ^ 16) : Closes s s' := by
  induction groups generalizing s with
  | nil =>
      cases h
      exact .of_eq rfl rfl rfl rfl
  | cons group groups ih =>
      obtain ⟨s₁, h₁, h⟩ := Option.bind_eq_some_iff.mp h
      refine (membersOffline_closes hcount h₁).trans (ih h fun x => ?_)
      obtain ⟨fallen, -, -, hroster, -⟩ := membersOffline_roster hcount h₁
      rw [hroster]
      exact Nat.lt_of_le_of_lt (Nat.sub_le _ _) (hcount x)

theorem membersOnInitialize_closes {n : BlockNumber}
    (h : Members.onInitialize s cfg networks n = some s')
    (hcount : ∀ x, s.roster.count x < 2 ^ 16) : Closes s s' := by
  simp only [Members.onInitialize] at h
  split at h
  · cases h
  · split at h
    · obtain ⟨s₁, h₁, h⟩ := Option.bind_eq_some_iff.mp h
      cases h
      exact (foldlM_membersOffline_closes h₁ hcount).trans (.of_eq rfl rfl rfl rfl)
    · cases h
      exact .of_eq rfl rfl rfl rfl

/-- Calls of the tasks pallet from outside push messages only. -/
theorem execTasks_closes {call : Tasks.Call} (h : execTasks s cfg networks call = some s')
    (honline : ∀ x n, call ≠ .shardOnline x n) (hoffline : ∀ x n, call ≠ .shardOffline x n) :
    Closes s s' := by
  obtain ⟨tasks, hexec, rfl⟩ := Option.map_eq_some_iff.mp h
  have hsteps : Tasks.OpSteps cfg.tasks (fun op => ∀ key, op ≠ .unregisterShard key) s.tasks tasks :=
    Tasks.exec_opSteps (fun _ _ => nofun) (fun hc => absurd hc (honline _ _))
      (fun hc => absurd hc (hoffline _ _)) hexec
  obtain ⟨new, heq, hnew⟩ := hsteps.pushedOps
  exact ⟨⟨fun _ => Or.inl rfl, fun _ => Or.inl rfl, fun _ _ => Or.inl rfl, fun _ hx => Or.inl hx,
    fun _ _ hx => ⟨hx, rfl⟩, rfl, rfl, rfl, rfl, rfl,
    ⟨new, heq, fun push hpush key hkey => absurd hkey (hnew push hpush key)⟩, rfl, rfl⟩,
    fun _ hx => Or.inl hx⟩

/-- Storage without the timers of block `n`. -/
def drainBucket (cfg : Config) (s : State) (n : BlockNumber) : State :=
  { s with shards := { s.shards with
    dkgTimeout := s.shards.dkgTimeout.removeAll
      (((s.shards.dkgTimeout.iterPrefix cfg.tasks.shardKey n).map Prod.fst).map
        fun shard => (n, shard))
    dkgTimeoutCounter := s.shards.dkgTimeoutCounter.remove n } }

theorem drainBucket_timeout (n b : BlockNumber) (x : ShardId) :
    (drainBucket cfg s n).shards.dkgTimeout.get (b, x)
      = if b = n then none else s.shards.dkgTimeout.get (b, x) := by
  have hmem : (b, x) ∈ ((s.shards.dkgTimeout.iterPrefix cfg.tasks.shardKey n).map Prod.fst).map
      (fun shard => (n, shard)) ↔ b = n ∧ s.shards.dkgTimeout.get (b, x) ≠ none := by
    rw [List.mem_map]
    constructor
    · rintro ⟨y, hy, heq⟩
      obtain ⟨rfl, rfl⟩ := Prod.mk.injEq .. |>.mp heq
      exact ⟨rfl, StorageMap.mem_map_iterPrefix.mp hy⟩
    · rintro ⟨rfl, hx⟩
      exact ⟨x, StorageMap.mem_map_iterPrefix.mpr hx, rfl⟩
  refine (StorageMap.get_removeAll ..).trans ?_
  by_cases hb : b = n
  · rw [if_pos hb]
    by_cases hx : s.shards.dkgTimeout.get (b, x) = none
    · rw [hx, ite_self]
    · rw [if_pos (hmem.mpr ⟨hb, hx⟩)]
  · rw [if_neg hb, if_neg fun hno => hb (hmem.mp hno).1]

/-- The timers of block `n` run out: who has no key yet is closed. -/
theorem timeoutDkgs_closes {n : BlockNumber} (h : Shards.timeoutDkgs s cfg networks n = some s') :
    Closes (drainBucket cfg s n) s' ∧
      ∀ x, s.shards.dkgTimeout.get (n, x) ≠ none →
        (s.shards.shardState.get x).any ShardStatus.isPending = true →
        s'.shards.shardState.get x = some .offline := by
  obtain ⟨s₁, h₁, rfl⟩ := Option.map_eq_some_iff.mp h
  have hmem : ∀ x, x ∈ ((s.shards.dkgTimeout.iterPrefix cfg.tasks.shardKey n).map Prod.fst).filter
      (fun shard => (s.shards.shardState.get shard).any ShardStatus.isPending) ↔
      s.shards.dkgTimeout.get (n, x) ≠ none ∧
        (s.shards.shardState.get x).any ShardStatus.isPending = true := by
    intro x
    rw [List.mem_filter, StorageMap.mem_map_iterPrefix]
  split at h₁
  · next hnil =>
      cases h₁
      refine ⟨.of_eq rfl rfl rfl rfl, fun x hx hp => ?_⟩
      have hno := (hmem x).mpr ⟨hx, hp⟩
      rw [List.isEmpty_iff.mp hnil] at hno
      cases hno
  · have hcloses := removeShardsOffline_closes h₁
    refine ⟨⟨⟨hcloses.status, hcloses.network, hcloses.member, hcloses.emptied, hcloses.seat,
      hcloses.commitment, hcloses.counter, hcloses.created, hcloses.timeout, ?_, hcloses.ops,
      hcloses.blockNumber, hcloses.dueHooks⟩, hcloses.closed⟩, fun x hx hp => ?_⟩
    · exact congrArg (fun m : StorageMap BlockNumber Nat => m.remove n) hcloses.timeoutCounter
    · have hnodup := (StorageMap.iterPrefix_keys_nodup cfg.tasks.shardKey s.shards.dkgTimeout
        n).filter fun shard => (s.shards.shardState.get shard).any ShardStatus.isPending
      have hstatus := congrArg (fun r : Roster AccountId NetworkId ShardId => r.status x)
        (removeShardsOffline_roster hnodup h₁).1
      exact hstatus.trans (if_pos ((hmem x).mpr ⟨hx, hp⟩))

end Sheds

/-! ## What a call does to the shards -/

/-- Where a call starts: the block has a new number, or the hook is no
longer due. -/
def opening (s : State) : Call → State
  | .newBlock =>
      { s with
        blockNumber := s.blockNumber + 1
        dueHooks := [.members, .shards, .elections, .tasks] }
  | .onInitialize hook => { s with dueHooks := s.dueHooks.erase hook }
  | _ => s

/-- The hook that is run. -/
def Call.hook : Call → Option Hook
  | .onInitialize hook => some hook
  | _ => none

theorem Call.ne_onInitialize {call : Call} {hook : Hook} (h : call.hook = none) :
    call ≠ .onInitialize hook := by
  rintro rfl
  cases h

/-- Shards are created one after the other. -/
def Creates (cfg : Config) (block : BlockNumber) : ShardsStore → ShardsStore → Prop :=
  ReflTransGen fun sh sh' => ∃ network threshold as,
    Shards.createShard cfg block network threshold sh as = some sh'

/-- What a call does to the shards. -/
inductive Act (cfg : Config) (i : Input) (s s' : State) : Prop
  | closes : i.call ≠ .onInitialize .shards → Closes s s' → Act cfg i s s'
  | expires : i.call = .onInitialize .shards → Closes (drainBucket cfg s s.blockNumber) s' →
      (∀ x, s.shards.dkgTimeout.get (s.blockNumber, x) ≠ none →
        (s.shards.shardState.get x).any ShardStatus.isPending = true →
        s'.shards.shardState.get x = some .offline) → Act cfg i s s'
  | returns {a} : i.call = .sendHeartbeat (.signed a) → s.members.memberOnline.get a = none →
      s.members.memberNetwork.get a ≠ none → s'.shards = Shards.memberOnline s.shards a →
      s'.tasks = s.tasks → s'.blockNumber = s.blockNumber → s'.dueHooks = s.dueHooks →
      Act cfg i s s'
  | commits {x a commitment} : s.shards.shardMembers.get (x, a) = some .added →
      s' = writeStatus s x a (.committed commitment) → Act cfg i s s'
  | joins {x a commitment group} : s.shards.shardMembers.get (x, a) = some .added →
      (∀ b status, (writeStatus s x a (.committed commitment)).shards.shardMembers.get (x, b)
        = some status → status.isCommitted = true) →
      s' = Shards.depositEvent { writeStatus s x a (.committed commitment) with
        shards := { (writeStatus s x a (.committed commitment)).shards with
          shardCommitment := s.shards.shardCommitment.insert x group
          shardState := s.shards.shardState.insert x .committed } } (.shardCommitted x group) →
      Act cfg i s s'
  | readies {x a} : (s.shards.shardMembers.get (x, a)).any MemberStatus.isCommitted = true →
      s.shards.shardCommitment.get x ≠ none → s' = writeStatus s x a .ready → Act cfg i s s'
  | opens {x a network key events tasks} :
      (s.shards.shardMembers.get (x, a)).any MemberStatus.isCommitted = true →
      s.shards.shardNetwork.get x = some network → Shards.tssPublicKey s.shards x = some key →
      tasks.pushedOps = s.tasks.pushedOps ++
        (if (i.networks.gateway network).isSome then [(network, .registerShard key)] else []) →
      s' = { writeStatus s x a .ready with
        shards := { (writeStatus s x a .ready).shards with
          shardState := s.shards.shardState.insert x .online
          events := events }
        tasks := tasks } → Act cfg i s s'
  | elects : i.call = .onInitialize .elections → Creates cfg s.blockNumber s.shards s'.shards →
      s'.tasks = s.tasks → s'.blockNumber = s.blockNumber → s'.dueHooks = s.dueHooks →
      Act cfg i s s'

section Act

variable {cfg : Config} {networks : Networks} {i : Input} {s s' : State}

theorem memberOnline_rest (s : State) (a : AccountId) (network : NetworkId) :
    (Members.memberOnline s a network).shards = Shards.memberOnline s.shards a ∧
    (Members.memberOnline s a network).tasks = s.tasks ∧
    (Members.memberOnline s a network).blockNumber = s.blockNumber ∧
    (Members.memberOnline s a network).dueHooks = s.dueHooks := by
  by_cases hmember : (!Shards.isShardMember s.shards a) = true
  · simp [Members.memberOnline, Elections.memberOnline, Members.depositEvent, hmember]
  · simp [Members.memberOnline, Elections.memberOnline, Members.depositEvent, hmember]

theorem executeSendHeartbeat_act {a : AccountId} (hcall : i.call = .sendHeartbeat (.signed a))
    (h : Members.executeSendHeartbeat s a = .ok s') : Act cfg i s s' := by
  obtain ⟨-, -, h⟩ := bind_ok h
  obtain ⟨network, hnetwork, h⟩ := bind_ok h
  have hnetwork := okOr_ok hnetwork
  cases h
  by_cases honline : Members.isMemberOnline s.members a = true
  · refine .closes (Call.ne_onInitialize (by rw [hcall]; rfl)) ?_
    rw [honline]
    exact .of_eq rfl rfl rfl rfl
  · have hoff : s.members.memberOnline.get a = none :=
      not_not.mp fun hno => honline (StorageMap.containsKey_iff.mpr hno)
    obtain ⟨hshards, htasks, hblock, hhooks⟩ := memberOnline_rest s a network
    rw [Bool.not_eq_true] at honline
    rw [honline]
    exact .returns hcall hoff (by rw [hnetwork]; exact Option.some_ne_none network) hshards htasks
      hblock hhooks

theorem executeCommit_act {a : AccountId} {shard : ShardId} {commitment : Commitment}
    {proof : ProofOfKnowledge}
    (h : Shards.executeCommit s cfg a shard commitment proof = .ok (some s')) :
    Act cfg i s s' := by
  obtain ⟨⟨⟩, hadded, h⟩ := bind_ok h
  obtain ⟨-, -, h⟩ := bind_ok h
  obtain ⟨-, -, h⟩ := bind_ok h
  obtain ⟨peerId, -, h⟩ := bind_ok h
  obtain ⟨-, -, h⟩ := bind_ok h
  have hadded : s.shards.shardMembers.get (shard, a) = some .added := by
    simpa using ensure_ok hadded
  simp only [Shards.commitShard] at h
  split at h
  · next hall =>
      split at h
      · cases h
      · next first rest _ =>
          obtain ⟨group, -, h⟩ := Option.map_eq_some_iff.mp (Except.ok.inj h)
          refine .joins hadded (fun b status hb => ?_) h.symm
          have hmem : (b, status) ∈ Shards.getShardMembers cfg
              (writeStatus s shard a (.committed commitment)).shards shard :=
            StorageMap.mem_iterPrefix.mpr hb
          exact List.all_eq_true.mp hall status (List.mem_map_of_mem hmem)
  · cases h
    exact .commits hadded rfl

theorem executeReady_act {a : AccountId} {shard : ShardId}
    (h : Shards.executeReady s cfg i.networks a shard = .ok (some s')) : Act cfg i s s' := by
  obtain ⟨⟨⟩, hcommitted, h⟩ := bind_ok h
  obtain ⟨network, hnetwork, h⟩ := bind_ok h
  obtain ⟨commitment, hcommitment, h⟩ := bind_ok h
  have hcommitted := ensure_ok hcommitted
  have hcommitment := okOr_ok hcommitment
  have h := Except.ok.inj h
  simp only [Shards.openShard] at h
  split at h
  · obtain ⟨key, hkey, h⟩ := Option.map_eq_some_iff.mp h
    have hfind : Shards.tssPublicKey s.shards shard = some key := by
      rw [Shards.tssPublicKey, hcommitment]
      exact hkey
    refine .opens hcommitted (okOr_ok hnetwork) hfind ?_ h.symm
    exact Tasks.shardOnline_pushedOps _ shard network hfind
  · cases h
    exact .readies hcommitted (by rw [hcommitment]; exact Option.some_ne_none commitment) rfl

theorem runHook_act {hook : Hook} (hcall : i.call = .onInitialize hook)
    (hcount : ∀ x, s.roster.count x < 2 ^ 16) (hnumbered : Numbered s.shards)
    (hids : hook = .elections →
      s.shards.createdShards.length + cfg.maxElectionsPerBlock < 2 ^ 64)
    (h : runHook s cfg i.networks hook = some s') : Act cfg i s s' := by
  cases hook with
  | members =>
      refine .closes (fun hno => ?_) (membersOnInitialize_closes h hcount)
      rw [hcall] at hno
      cases hno
  | shards =>
      obtain ⟨hcloses, hexpired⟩ := timeoutDkgs_closes h
      exact .expires hcall hcloses hexpired
  | elections =>
      obtain ⟨new, helects, -⟩ := @onInitialize_elects (fun _ _ => True) cfg i.networks
        (fun _ _ => True) s s' h hnumbered (hids rfl) fun _ => trivial
      refine .elects hcall ?_ helects.tasks helects.blockNumber helects.dueHooks
      exact electionsOnInitialize_shards (P := Creates cfg s.blockNumber s.shards)
        (fun hcreate hsh => hsh.tail ⟨_, _, _, hcreate⟩) h .refl
  | tasks =>
      refine .closes (fun hno => ?_) (execTasks_closes h (fun _ _ => nofun) fun _ _ => nofun)
      rw [hcall] at hno
      cases hno

theorem exec_act (h : Sound cfg s) (hexec : exec cfg s i = some s') :
    Act cfg i (opening s i.call) s' := by
  obtain ⟨networks, call⟩ := i
  cases exec_ends hexec with
  | fails hblock hhook =>
      have hopen : opening s call = s := by
        cases call with
        | newBlock => exact absurd rfl hblock
        | onInitialize hook => exact absurd rfl (hhook hook)
        | _ => rfl
      rw [hopen]
      exact .closes (hhook .shards) (.of_eq rfl rfl rfl rfl)
  | newBlock => exact .closes (Call.ne_onInitialize rfl) (.of_eq rfl rfl rfl rfl)
  | onInitialize hdue hrun =>
      refine runHook_act rfl h.count_lt h.numbered (fun hhook => ?_) hrun
      exact h.ids_left (hhook ▸ hdue)
  | registerMember => exact .closes (Call.ne_onInitialize rfl) (.of_eq rfl rfl rfl rfl)
  | unregisterMember _ hok =>
      obtain ⟨members, rfl⟩ := executeUnregisterMember_ok hok
      exact .closes (Call.ne_onInitialize rfl) (.of_eq rfl rfl rfl rfl)
  | sendHeartbeat hok => exact executeSendHeartbeat_act rfl hok
  | commit hok => exact executeCommit_act hok
  | ready hok => exact executeReady_act hok
  | forceShardOffline _ hok =>
      exact .closes (Call.ne_onInitialize rfl) (removeShardsOffline_closes hok)
  | tasks hcall hok =>
      refine .closes (Call.ne_onInitialize rfl)
        (execTasks_closes hok (fun x n hc => ?_) fun x n hc => ?_)
      · rw [hc] at hcall
        cases hcall
      · rw [hc] at hcall
        cases hcall

end Act

end Chain

end Timechain
