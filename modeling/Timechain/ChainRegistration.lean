import Timechain.ChainTimers

/-!
# Registering and unregistering shards

A shard is registered at the gateway of its network when it goes online,
and unregistered when it is taken off the network and has a key. The key
comes before the shard is online: a shard that is closed in between is
unregistered without ever having been registered.
-/

namespace Timechain

namespace Chain

/-- Every key is registered at a gateway before it is unregistered there. -/
def RegisteredFirst (ops : List (NetworkId × GatewayOp)) : Prop :=
  ∀ before network key after, ops = before ++ (network, .unregisterShard key) :: after →
    (network, .registerShard key) ∈ before

/-- The networks of the shards there are have a gateway. -/
def Gateways (s : State) (i : Input) : Prop :=
  ∀ c ∈ s.shards.createdShards, (i.networks.gateway c.network).isSome = true

/-- The call takes a shard off its network that has a key and is not
online. -/
def ClosesKeyed (cfg : Config) (s : State) (i : Input) : Prop :=
  ∃ s' x, exec cfg s i = some s' ∧ s.shards.shardNetwork.get x ≠ none ∧
    s.shards.shardCommitment.get x ≠ none ∧ s.shards.shardState.get x ≠ some .online ∧
    s'.shards.shardNetwork.get x = none

/-- Online shards have been registered. -/
def Announced (ops : List (NetworkId × GatewayOp)) (sh : ShardsStore) : Prop :=
  ∀ x network, sh.shardState.get x = some .online → sh.shardNetwork.get x = some network →
    ∃ key, Shards.tssPublicKey sh x = some key ∧ (network, .registerShard key) ∈ ops

section Announced

variable {cfg : Config} {ok : State → Input → Prop} {i : Input} {s s' : State}
  {sh sh' : ShardsStore} {ops new : List (NetworkId × GatewayOp)} {is : List Input}

theorem RegisteredFirst.append (h : RegisteredFirst ops)
    (hnew : ∀ push ∈ new, ∀ key, push.2 = .unregisterShard key →
      (push.1, .registerShard key) ∈ ops) : RegisteredFirst (ops ++ new) := by
  intro before network key after heq
  rcases List.append_eq_append_iff.mp heq with ⟨rest, rfl, hrest⟩ | ⟨rest, hops, hrest⟩
  · -- The op is one of the new ones.
    have hmem : (network, .unregisterShard key) ∈ new := by
      rw [hrest]
      exact List.mem_append_right _ (List.mem_cons_self ..)
    exact List.mem_append_left _ (hnew _ hmem key rfl)
  · cases rest with
    | nil =>
        rw [List.append_nil] at hops
        have hmem : (network, .unregisterShard key) ∈ new := by
          rw [← List.nil_append new, ← hrest]
          exact List.mem_cons_self ..
        rw [← hops]
        exact hnew _ hmem key rfl
    | cons op rest =>
        cases hrest
        exact h before network key rest hops

/-- A shard that stays online keeps its network and its key. -/
theorem Announced.mono (h : Announced ops sh)
    (hstate : ∀ x, sh'.shardState.get x = some .online → sh.shardState.get x = some .online)
    (hnetwork : ∀ x n, sh'.shardNetwork.get x = some n → sh.shardNetwork.get x = some n)
    (hcommitment : sh'.shardCommitment = sh.shardCommitment) :
    Announced (ops ++ new) sh' := by
  intro x network hx hn
  obtain ⟨key, hkey, hmem⟩ := h x network (hstate x hx) (hnetwork x network hn)
  refine ⟨key, ?_, List.mem_append_left _ hmem⟩
  rw [Shards.tssPublicKey, hcommitment]
  exact hkey

theorem Announced.of_eq (h : Announced ops sh) (hstate : sh'.shardState = sh.shardState)
    (hnetwork : sh'.shardNetwork = sh.shardNetwork)
    (hcommitment : sh'.shardCommitment = sh.shardCommitment) : Announced ops sh' := by
  have hmono : Announced (ops ++ []) sh' :=
    h.mono (fun x hx => hstate ▸ hx) (fun x n hn => hnetwork ▸ hn) hcommitment
  rwa [List.append_nil] at hmono

theorem Closes.announced (h : Closes s s') (ha : Announced s.tasks.pushedOps s.shards) :
    Announced s'.tasks.pushedOps s'.shards := by
  obtain ⟨new, hops, -⟩ := h.ops
  rw [hops]
  refine ha.mono (fun x hx => ?_) (fun x n hn => ?_) h.commitment
  · rcases h.status x with heq | hoff
    · exact heq.symm.trans hx
    · rw [hoff] at hx
      cases hx
  · rcases h.network x with heq | hnone
    · exact heq.symm.trans hn
    · rw [hnone] at hn
      cases hn

theorem createShard_announced {block : BlockNumber} {network : NetworkId} {threshold : Nat}
    {as : List AccountId} (h : Shards.createShard cfg block network threshold sh as = some sh')
    (ha : Announced ops sh) : Announced ops sh' := by
  simp only [Shards.createShard] at h
  split at h
  · cases h
    intro x n hx hn
    dsimp only at hx hn
    rw [StorageMap.get_insert] at hx hn
    split at hx
    · cases hx
    · next hne =>
        rw [if_neg hne] at hn
        exact ha x n hx hn
  · cases h

/-- Online shards are registered after every call, if their network has a
gateway when they go online. -/
theorem Act.announced (h : Act cfg i s s') (hn : Numbered s.shards)
    (hlt : s'.shards.createdShards.length < 2 ^ 64)
    (hgateway : ∀ x n, s.shards.shardNetwork.get x = some n →
      (i.networks.gateway n).isSome = true)
    (ha : Announced s.tasks.pushedOps s.shards) : Announced s'.tasks.pushedOps s'.shards := by
  cases h with
  | closes _ hcloses => exact hcloses.announced ha
  | expires _ hcloses _ => exact hcloses.announced (ha.of_eq rfl rfl rfl)
  | @returns a _ _ _ hshards htasks =>
      intro x n hx hnet
      obtain ⟨online, state, hrest⟩ := shardsMemberOnline_rest s.shards a
      rw [hshards, shardsMemberOnline_state] at hx
      rw [hshards, hrest] at hnet
      rw [hshards, hrest, htasks]
      split at hx
      · cases hx
      · exact ha x n hx hnet
  | commits _ heq =>
      subst heq
      exact ha.of_eq rfl rfl rfl
  | @joins y a commitment group _ _ heq =>
      subst heq
      intro x n hx hnet
      simp only [Shards.depositEvent, StorageMap.get_insert] at hx
      split at hx
      · cases hx
      · next hne =>
          obtain ⟨key, hkey, hmem⟩ := ha x n hx hnet
          refine ⟨key, ?_, hmem⟩
          simp only [Shards.tssPublicKey, Shards.depositEvent, StorageMap.get_insert, if_neg hne]
          exact hkey
  | readies _ _ heq =>
      subst heq
      exact ha.of_eq rfl rfl rfl
  | @opens y a network key events tasks _ hnetwork hkey hops heq =>
      subst heq
      intro x n hx hnet
      dsimp only at hx ⊢
      rw [StorageMap.get_insert] at hx
      rw [hops, if_pos (hgateway y network hnetwork)]
      split at hx
      · next hxy =>
          subst hxy
          obtain rfl : network = n := Option.some.inj (hnetwork.symm.trans hnet)
          exact ⟨key, hkey, List.mem_append_right _ (List.mem_singleton_self _)⟩
      · obtain ⟨key', hkey', hmem⟩ := ha x n hx hnet
        exact ⟨key', hkey', List.mem_append_left _ hmem⟩
  | elects _ hcreates htasks =>
      rw [htasks]
      exact hcreates.rule (P := Announced s.tasks.pushedOps) hn hlt
        (fun _ _ hcreate => createShard_announced hcreate) ha

/-- What is unregistered was online. -/
theorem Closes.registeredFirst (h : Closes s s')
    (honline : ∀ x, s.shards.shardNetwork.get x ≠ none → s.shards.shardCommitment.get x ≠ none →
      s'.shards.shardNetwork.get x = none → s.shards.shardState.get x = some .online)
    (ha : Announced s.tasks.pushedOps s.shards) (hr : RegisteredFirst s.tasks.pushedOps) :
    RegisteredFirst s'.tasks.pushedOps := by
  obtain ⟨new, hops, hnew⟩ := h.ops
  rw [hops]
  refine hr.append fun push hpush key hkey => ?_
  obtain ⟨x, hnetwork, hfind, hgone⟩ := hnew push hpush key hkey
  have hx := honline x (hnetwork ▸ Option.some_ne_none _) (tssPublicKey_ne_none hfind) hgone
  obtain ⟨key', hkey', hmem⟩ := ha x push.1 hx hnetwork
  obtain rfl : key' = key := Option.some.inj (hkey'.symm.trans hfind)
  exact hmem

theorem Act.registeredFirst (h : Act cfg i s s')
    (honline : ∀ x, s.shards.shardNetwork.get x ≠ none → s.shards.shardCommitment.get x ≠ none →
      s'.shards.shardNetwork.get x = none → s.shards.shardState.get x = some .online)
    (ha : Announced s.tasks.pushedOps s.shards) (hr : RegisteredFirst s.tasks.pushedOps) :
    RegisteredFirst s'.tasks.pushedOps := by
  cases h with
  | closes _ hcloses => exact hcloses.registeredFirst honline ha hr
  | expires _ hcloses _ => exact hcloses.registeredFirst honline (ha.of_eq rfl rfl rfl) hr
  | returns _ _ _ _ htasks => exact htasks ▸ hr
  | commits _ heq => exact heq ▸ hr
  | joins _ _ heq => exact heq ▸ hr
  | readies _ _ heq => exact heq ▸ hr
  | opens _ _ _ hops heq =>
      subst heq
      dsimp only
      rw [hops]
      refine hr.append fun push hpush key hkey => ?_
      split at hpush
      · obtain rfl := List.mem_singleton.mp hpush
        cases hkey
      · cases hpush
  | elects _ _ htasks => exact htasks ▸ hr

/-- A shard serves the network it was created for. -/
theorem run_created (h : ChainRun cfg ok is s) {x : ShardId} {network : NetworkId}
    (hx : s.shards.shardNetwork.get x = some network) :
    ∃ c ∈ s.shards.createdShards, c.network = network := by
  have hserved := run_served h (run_ids h).homes
  have hlt : x < s.shards.createdShards.length := by
    rw [← (run_sound h).numbered.counter]
    refine Nat.lt_of_not_le fun hle => ?_
    rw [(run_sound h).numbered.fresh x hle] at hx
    cases hx
  refine ⟨s.shards.createdShards[x], List.getElem_mem hlt, ?_⟩
  have hhome := hserved.homed hx
  rw [homeOf, List.getElem?_eq_getElem hlt] at hhome
  exact hhome.symm

/-- `ClosesKeyed`, computed. -/
def keepsKeyed (cfg : Config) (s : State) (i : Input) : Bool :=
  match exec cfg s i with
  | none => true
  | some s' => (s.shards.shardCommitment.iter id).all fun (x, _) =>
      s.shards.shardState.get x == some .online || s.shards.shardNetwork.get x == none ||
        s'.shards.shardNetwork.get x != none

theorem not_closesKeyed (h : keepsKeyed cfg s i = true) : ¬ClosesKeyed cfg s i := by
  rintro ⟨s', x, hexec, hnetwork, hkey, hstate, hgone⟩
  rw [keepsKeyed, hexec] at h
  obtain ⟨commitment, hcommitment⟩ := Option.ne_none_iff_exists'.mp hkey
  have hx := List.all_eq_true.mp h (x, commitment) (StorageMap.mem_iter.mpr hcommitment)
  simp [hstate, hnetwork, hgone] at hx

end Announced

/-- The shard goes online, and is put offline by force. -/
def forcedCalls : List Call := onlineCalls ++ [.forceShardOffline .root 0]

/-- The gateway is registered, the member is elected in the second block
and commits; it is not ready when the time is up in the third. -/
def unopenedInputs : List Input :=
  (exampleBlock [.tasks (.gatewayRegistered 0 0), exampleRegister 0, exampleHeartbeat] ++
    exampleBlock ([exampleHeartbeat] ++ exampleKeygen.take 1) ++ exampleBlock []).map exampleInput

end Chain

end Timechain
