import Timechain.ChainElection

/-!
# The calls of the chain

Per call, what it does to the roster: a registration, an
unregistration, or a sequence of steps (`Outcome`). Shard ids never run
out: a block has a `u32` number and elects at most a `u32` number of
shards, since its hooks run once. This and what else has to hold in
storage for the calls to be steps is `Sound`.
-/

namespace Timechain

namespace Chain

open Relation (ReflTransGen)

/-- What holds of storage in every run. -/
structure Sound (cfg : Config) (s : State) : Prop where
  beats : Beats s
  known : Known s.members
  ready : Ready s.shards
  numbered : Numbered s.shards
  count_lt : ∀ x, s.roster.count x < 2 ^ 16
  block_lt : s.blockNumber < 2 ^ 32
  hooks_nodup : s.dueHooks.Nodup
  budget : s.shards.createdShards.length
    + (if Hook.elections ∈ s.dueHooks then cfg.maxElectionsPerBlock else 0)
      ≤ cfg.maxElectionsPerBlock * s.blockNumber

theorem sound_genesis (cfg : Config) : Sound cfg State.genesis where
  beats := ⟨fun _ => iff_of_false Bool.false_ne_true (by simp [State.genesis]), List.nodup_nil,
    by simp [State.genesis]⟩
  known := ⟨fun _ => iff_of_true rfl rfl, fun _ => iff_of_true rfl rfl⟩
  ready _ _ _ hs _ := by cases hs
  numbered := ⟨rfl, fun _ _ => rfl⟩
  count_lt _ := Nat.two_pow_pos 16
  block_lt := Nat.two_pow_pos 32
  hooks_nodup := List.nodup_nil
  budget := Nat.le_refl 0

theorem Sound.of_kept {cfg : Config} {s s' : State} (h : Sound cfg s) (hkept : Kept s s')
    (hbeats : Beats s') (hcount : ∀ x, s'.roster.count x < 2 ^ 16) : Sound cfg s' where
  beats := hbeats
  known := hkept.known h.known
  ready := hkept.ready h.ready
  numbered := by
    refine ⟨?_, fun x hx => ?_⟩
    · rw [hkept.shardIdCounter, hkept.createdShards]
      exact h.numbered.counter
    · rw [hkept.shardIdCounter] at hx
      exact hkept.unserved (h.numbered.fresh x hx)
  count_lt := hcount
  block_lt := hkept.blockNumber ▸ h.block_lt
  hooks_nodup := hkept.dueHooks ▸ h.hooks_nodup
  budget := by
    rw [hkept.createdShards, hkept.dueHooks, hkept.blockNumber]
    exact h.budget

theorem Sound.budget_lt {cfg : Config} {s : State} (h : Sound cfg s) :
    cfg.maxElectionsPerBlock * s.blockNumber < 2 ^ 64 :=
  calc cfg.maxElectionsPerBlock * s.blockNumber
    _ ≤ (2 ^ 32 - 1) * (2 ^ 32 - 1) :=
      Nat.mul_le_mul (Nat.le_sub_one_of_lt cfg.maxElectionsPerBlock_lt)
        (Nat.le_sub_one_of_lt h.block_lt)
    _ < 2 ^ 64 := by decide

/-- In a block that has not elected yet, ids are left for its elections. -/
theorem Sound.ids_left {cfg : Config} {s : State} (h : Sound cfg s)
    (hdue : Hook.elections ∈ s.dueHooks) :
    s.shards.createdShards.length + cfg.maxElectionsPerBlock < 2 ^ 64 := by
  have hbudget := h.budget
  rw [if_pos hdue] at hbudget
  exact Nat.lt_of_le_of_lt hbudget h.budget_lt

theorem Sound.created_lt {cfg : Config} {s : State} (h : Sound cfg s) :
    s.shards.createdShards.length < 2 ^ 64 :=
  Nat.lt_of_le_of_lt (Nat.le_trans (Nat.le_add_right ..) h.budget) h.budget_lt

/-- Threshold and size of a shard as one of the networks has them. -/
def Input.Fits (i : Input) (threshold size : Nat) : Prop :=
  ∃ network, threshold = (i.networks.shardThreshold network).toNat ∧
    size = (i.networks.shardSize network).toNat

/-- What a call does to the roster. -/
inductive Outcome (lists : AccountId → NetworkId → Prop) (fits : Nat → Nat → Prop) (cfg : Config)
    (call : Call) (r r' : Roster AccountId NetworkId ShardId) : Prop
  | steps : ReflTransGen (Roster.Step lists fits) r r' → Outcome lists fits cfg call r r'
  | register {origin network publicKey peerId} :
      call = .registerMember origin network publicKey peerId → cfg.adminOrigin origin = true →
      r' = r.register (publicKey.intoAccount cfg.blake2) network → Outcome lists fits cfg call r r'
  | unregister {origin a} : call = .unregisterMember origin a → cfg.adminOrigin origin = true →
      r' = r.unregister a → Outcome lists fits cfg call r r'

/-- A call that elects nobody. -/
structure Quiet (lists : AccountId → NetworkId → Prop) (fits : Nat → Nat → Prop) (cfg : Config)
    (call : Call) (s s' : State) : Prop where
  outcome : Outcome lists fits cfg call s.roster s'.roster
  sound : Sound cfg s'
  created : s'.shards.createdShards = s.shards.createdShards

section Exec

variable {lists : AccountId → NetworkId → Prop} {fits : Nat → Nat → Prop} {cfg : Config}
  {s s' : State}

theorem dispatch_eq {r : Except DispatchError (Option State)} (h : dispatch s r = some s') :
    s' = s ∨ r = .ok (some s') := by
  cases r with
  | error e => exact Or.inl (Option.some.inj h).symm
  | ok t => exact Or.inr (congrArg Except.ok h)

theorem ensureAdmin_ok {origin : Tasks.Origin} {u : Unit} (h : ensureAdmin cfg origin = .ok u) :
    cfg.adminOrigin origin = true := by
  rw [ensureAdmin] at h
  split at h
  · next hadmin => exact hadmin
  · cases h

theorem ensureSigned_ok {origin : Tasks.Origin} {a : AccountId} (h : ensureSigned origin = .ok a) :
    origin = .signed a := by
  cases origin with
  | signed b =>
      cases h
      rfl
  | _ => cases h

/-- How a call ends that does not panic: it is rolled back, or it comes to
the block, the hook or the function of a pallet that it calls. -/
inductive Ends (cfg : Config) (networks : Networks) (s : State) : Call → State → Prop
  | fails {call} : call ≠ .newBlock → (∀ hook, call ≠ .onInitialize hook) →
      Ends cfg networks s call s
  | newBlock : s.blockNumber + 1 < 2 ^ 32 →
      Ends cfg networks s .newBlock
        { s with
          blockNumber := s.blockNumber + 1
          dueHooks := [.members, .shards, .elections, .tasks] }
  | onInitialize {hook s'} : hook ∈ s.dueHooks →
      runHook { s with dueHooks := s.dueHooks.erase hook } cfg networks hook = some s' →
      Ends cfg networks s (.onInitialize hook) s'
  | registerMember {origin network publicKey peerId} : cfg.adminOrigin origin = true →
      Ends cfg networks s (.registerMember origin network publicKey peerId)
        (Members.executeRegisterMember s cfg network publicKey peerId)
  | unregisterMember {origin member s'} : cfg.adminOrigin origin = true →
      Members.executeUnregisterMember s member = .ok s' →
      Ends cfg networks s (.unregisterMember origin member) s'
  | sendHeartbeat {member s'} : Members.executeSendHeartbeat s member = .ok s' →
      Ends cfg networks s (.sendHeartbeat (.signed member)) s'
  | commit {member shard commitment proofOfKnowledge s'} :
      Shards.executeCommit s cfg member shard commitment proofOfKnowledge = .ok (some s') →
      Ends cfg networks s (.commit (.signed member) shard commitment proofOfKnowledge) s'
  | ready {member shard s'} :
      Shards.executeReady s cfg networks member shard = .ok (some s') →
      Ends cfg networks s (.ready (.signed member) shard) s'
  | forceShardOffline {origin shard s'} : cfg.adminOrigin origin = true →
      Shards.removeShardsOffline s cfg networks [shard] = some s' →
      Ends cfg networks s (.forceShardOffline origin shard) s'
  | tasks {call s'} : isDispatchable call = true → execTasks s cfg networks call = some s' →
      Ends cfg networks s (.tasks call) s'

theorem exec_ends {networks : Networks} {call : Call}
    (hexec : exec cfg s ⟨networks, call⟩ = some s') : Ends cfg networks s call s' := by
  cases call with
  | newBlock =>
      simp only [exec] at hexec
      split at hexec
      · next hlt =>
          cases hexec
          exact .newBlock hlt
      · cases hexec
  | onInitialize hook =>
      simp only [exec] at hexec
      split at hexec
      · next hdue => exact .onInitialize hdue hexec
      · cases hexec
  | registerMember origin network publicKey peerId =>
      rcases dispatch_eq hexec with rfl | hok
      · exact .fails (by simp) (by simp)
      · obtain ⟨⟨⟩, hadmin, hok⟩ := bind_ok hok
        cases hok
        exact .registerMember (ensureAdmin_ok hadmin)
  | unregisterMember origin member =>
      rcases dispatch_eq hexec with rfl | hok
      · exact .fails (by simp) (by simp)
      · obtain ⟨⟨⟩, hadmin, hok⟩ := bind_ok hok
        obtain ⟨s₁, hok, hs₁⟩ := bind_ok hok
        cases hs₁
        exact .unregisterMember (ensureAdmin_ok hadmin) hok
  | sendHeartbeat origin =>
      rcases dispatch_eq hexec with rfl | hok
      · exact .fails (by simp) (by simp)
      · obtain ⟨member, hsigned, hok⟩ := bind_ok hok
        obtain ⟨s₁, hok, hs₁⟩ := bind_ok hok
        cases hs₁
        rw [ensureSigned_ok hsigned]
        exact .sendHeartbeat hok
  | commit origin shard commitment proofOfKnowledge =>
      rcases dispatch_eq hexec with rfl | hok
      · exact .fails (by simp) (by simp)
      · obtain ⟨member, hsigned, hok⟩ := bind_ok hok
        rw [ensureSigned_ok hsigned]
        exact .commit hok
  | ready origin shard =>
      rcases dispatch_eq hexec with rfl | hok
      · exact .fails (by simp) (by simp)
      · obtain ⟨member, hsigned, hok⟩ := bind_ok hok
        rw [ensureSigned_ok hsigned]
        exact .ready hok
  | forceShardOffline origin shard =>
      rcases dispatch_eq hexec with rfl | hok
      · exact .fails (by simp) (by simp)
      · obtain ⟨⟨⟩, hadmin, hok⟩ := bind_ok hok
        exact .forceShardOffline (ensureAdmin_ok hadmin) (Except.ok.inj hok)
  | tasks call =>
      simp only [exec] at hexec
      split at hexec
      · next hcall => exact .tasks hcall hexec
      · cases hexec

/-- Only the members pallet hears of an account that is unregistered. -/
theorem executeUnregisterMember_ok {member : AccountId}
    (h : Members.executeUnregisterMember s member = .ok s') :
    ∃ members, s' = { s with members := members } := by
  obtain ⟨network, -, h⟩ := bind_ok h
  obtain ⟨-, -, h⟩ := bind_ok h
  cases h
  exact ⟨_, rfl⟩

/-- Only the shards pallet hears of a commitment. -/
theorem executeCommit_ok {member : AccountId} {shard : ShardId} {commitment : Commitment}
    {proofOfKnowledge : ProofOfKnowledge}
    (h : Shards.executeCommit s cfg member shard commitment proofOfKnowledge = .ok (some s')) :
    ∃ shards, s' = { s with shards := shards } := by
  obtain ⟨-, -, h⟩ := bind_ok h
  obtain ⟨-, -, h⟩ := bind_ok h
  obtain ⟨-, -, h⟩ := bind_ok h
  obtain ⟨peerId, -, h⟩ := bind_ok h
  obtain ⟨-, -, h⟩ := bind_ok h
  simp only [Shards.commitShard] at h
  split at h
  · split at h
    · cases h
    · obtain ⟨group, -, rfl⟩ := Option.map_eq_some_iff.mp (Except.ok.inj h)
      exact ⟨_, rfl⟩
  · cases h
    exact ⟨_, rfl⟩

theorem Beats.of_still (h : Beats s) (hstill : Still s s')
    (honline : s'.roster.online = s.roster.online) : Beats s' where
  online_iff a := by
    rw [honline, hstill.heartbeat, hstill.timedOut]
    exact h.online_iff a
  nodup := hstill.timedOut ▸ h.nodup
  disjoint a ha := by
    rw [hstill.timedOut] at ha
    rw [hstill.heartbeat]
    exact h.disjoint a ha

theorem quiet_refl {call : Call} (h : Sound cfg s) : Quiet lists fits cfg call s s :=
  ⟨.steps .refl, h, rfl⟩

/-- Steps with no heartbeat between them. -/
theorem quiet_of_steps {call : Call} (h : Sound cfg s)
    (hsteps : ReflTransGen (Roster.Step lists fits) s.roster s'.roster) (hkept : Kept s s')
    (hbeats : Beats s') : Quiet lists fits cfg call s s' :=
  ⟨.steps hsteps, h.of_kept hkept hbeats (Roster.count_lt_steps hsteps h.count_lt),
    hkept.createdShards⟩

theorem quiet_of_still {call : Call} (h : Sound cfg s)
    (hmoves : ReflTransGen (Roster.Step lists fits) s.roster s'.roster ∧ Still s s' ∧
      s'.roster.online = s.roster.online) : Quiet lists fits cfg call s s' :=
  quiet_of_steps h hmoves.1 hmoves.2.1.toKept (h.beats.of_still hmoves.2.1 hmoves.2.2)

/-- Only the tasks pallet moves. -/
theorem execTasks_quiet {networks : Networks} {call : Tasks.Call} {call' : Call}
    (h : Sound cfg s) (hexec : execTasks s cfg networks call = some s') :
    Quiet lists fits cfg call' s s' := by
  obtain ⟨tasks, -, rfl⟩ := Option.map_eq_some_iff.mp hexec
  exact quiet_of_still h ⟨.refl, ⟨⟨id, id, id, rfl, rfl, rfl, rfl⟩, rfl, rfl⟩, rfl⟩

/-- A hook other than that of the elections. -/
theorem runHook_quiet (fits : Nat → Nat → Prop) {networks : Networks} {hook : Hook} (call : Call)
    (h : Sound cfg s)
    (hlists : ∀ a n, s.roster.network a = some n → lists a n) (hne : hook ≠ .elections)
    (hrun : runHook s cfg networks hook = some s') : Quiet lists fits cfg call s s' := by
  cases hook with
  | members =>
      simp only [runHook, Members.onInitialize] at hrun
      split at hrun
      · cases hrun
      · split at hrun
        · obtain ⟨hsteps, hkept, hbeats, -⟩ :=
            timeoutHeartbeats_moves fits hrun h.count_lt h.beats hlists
          exact quiet_of_steps h hsteps hkept hbeats
        · cases hrun
          exact quiet_refl h
  | shards => exact quiet_of_still h (timeoutDkgs_moves hrun)
  | elections => exact absurd rfl hne
  | tasks => exact execTasks_quiet h hrun

/-- Running a hook starts from the state in which it is no longer due. -/
theorem Sound.erase (h : Sound cfg s) {hook : Hook} (hne : hook ≠ .elections) :
    Sound cfg { s with dueHooks := s.dueHooks.erase hook } where
  beats := ⟨h.beats.online_iff, h.beats.nodup, h.beats.disjoint⟩
  known := h.known
  ready := h.ready
  numbered := h.numbered
  count_lt := h.count_lt
  block_lt := h.block_lt
  hooks_nodup := h.hooks_nodup.erase hook
  budget := by
    have hmem : Hook.elections ∈ s.dueHooks.erase hook ↔ Hook.elections ∈ s.dueHooks :=
      List.mem_erase_of_ne (Ne.symm hne)
    simp only [hmem]
    exact h.budget

theorem newBlock_quiet {call : Call} (h : Sound cfg s) (hlt : s.blockNumber + 1 < 2 ^ 32) :
    Quiet lists fits cfg call s { s with
      blockNumber := s.blockNumber + 1
      dueHooks := [.members, .shards, .elections, .tasks] } := by
  refine ⟨.steps .refl, ⟨⟨h.beats.online_iff, h.beats.nodup, h.beats.disjoint⟩, h.known, h.ready,
    h.numbered, h.count_lt, hlt, by simp, ?_⟩, rfl⟩
  have hbudget := h.budget
  have hdue : Hook.elections ∈ [Hook.members, .shards, .elections, .tasks] := by simp
  rw [if_pos hdue, Nat.mul_add_one]
  dsimp only
  omega

/-- Every call but the elections' hook. -/
theorem exec_quiet (lists : AccountId → NetworkId → Prop) (fits : Nat → Nat → Prop) {i : Input}
    (h : Sound cfg s)
    (hlists : ∀ a n, s.roster.network a = some n → lists a n)
    (hne : i.call ≠ .onInitialize .elections) (hexec : exec cfg s i = some s') :
    Quiet lists fits cfg i.call s s' := by
  obtain ⟨networks, call⟩ := i
  cases exec_ends hexec with
  | fails => exact quiet_refl h
  | newBlock hlt => exact newBlock_quiet h hlt
  | @onInitialize hook _ _ hrun =>
      have hhook : hook ≠ .elections := by
        rintro rfl
        exact hne rfl
      have hq := runHook_quiet fits (.onInitialize hook) (h.erase hhook) hlists hhook hrun
      exact ⟨hq.outcome, hq.sound, hq.created⟩
  | @registerMember origin network publicKey peerId hadmin =>
      obtain ⟨hroster, hstill⟩ := executeRegisterMember_roster s cfg network publicKey peerId
      refine ⟨.register rfl hadmin hroster,
        h.of_kept hstill.toKept (h.beats.of_still hstill ?_) ?_, hstill.createdShards⟩
      · rw [hroster]
        rfl
      · rw [hroster]
        exact h.count_lt
  | unregisterMember hadmin hok =>
      obtain ⟨hroster, hstill⟩ := executeUnregisterMember_roster hok
      refine ⟨.unregister rfl hadmin hroster,
        h.of_kept hstill.toKept (h.beats.of_still hstill ?_) ?_, hstill.createdShards⟩
      · rw [hroster]
        rfl
      · rw [hroster]
        exact h.count_lt
  | sendHeartbeat hok =>
      obtain ⟨hsteps, hkept, hbeats⟩ := executeSendHeartbeat_moves hok h.beats
      exact quiet_of_steps h hsteps hkept hbeats
  | commit hok => exact quiet_of_still h (executeCommit_moves h.ready hok)
  | ready hok => exact quiet_of_still h (executeReady_moves hok)
  | @forceShardOffline origin shard _ _ hok =>
      obtain ⟨hroster, hstill⟩ := removeShardsOffline_roster (List.nodup_singleton shard) hok
      refine quiet_of_still h ⟨.single ?_, hstill, ?_⟩
      · rw [hroster]
        exact .dissolve (List.nodup_singleton shard)
      · rw [hroster]
        rfl
  | tasks _ hok => exact execTasks_quiet h hok

/-- The elections' hook. -/
theorem exec_elects (lists : AccountId → NetworkId → Prop) (fits : Nat → Nat → Prop)
    {networks : Networks} (h : Sound cfg s)
    (hfits : ∀ n, fits (networks.shardThreshold n).toNat (networks.shardSize n).toNat)
    (hexec : exec cfg s ⟨networks, .onInitialize .elections⟩ = some s') :
    ∃ new, Elects lists fits new { s with dueHooks := s.dueHooks.erase .elections } s' ∧
      Sound cfg s' := by
  simp only [exec] at hexec
  split at hexec
  · next hdue =>
      obtain ⟨new, helects, hle⟩ := onInitialize_elects lists hexec
        h.numbered (h.ids_left hdue) hfits
      have hmembers : s'.members = s.members := helects.members
      have hblock : s'.blockNumber = s.blockNumber := helects.blockNumber
      have hhooks : s'.dueHooks = s.dueHooks.erase .elections := helects.dueHooks
      have honline : s'.roster.online = s.roster.online :=
        congrArg (fun m : MembersStore => m.memberOnline.containsKey) hmembers
      refine ⟨new, helects, ⟨fun a => ?_, ?_, fun a ha => ?_⟩, ?_, helects.ready h.ready,
        helects.numbered, Roster.count_lt_steps helects.steps h.count_lt, ?_, ?_, ?_⟩
      · rw [honline, hmembers]
        exact h.beats.online_iff a
      · rw [hmembers]
        exact h.beats.nodup
      · rw [hmembers] at ha ⊢
        exact h.beats.disjoint a ha
      · rw [hmembers]
        exact h.known
      · rw [hblock]
        exact h.block_lt
      · rw [hhooks]
        exact h.hooks_nodup.erase _
      · have hbudget := h.budget
        have hcreated : s'.shards.createdShards = s.shards.createdShards ++ new := helects.created
        rw [if_pos hdue] at hbudget
        rw [hhooks, if_neg h.hooks_nodup.not_mem_erase, hblock, hcreated, List.length_append]
        omega
  · cases hexec

/-- What a call does, in a sound state. Who goes offline does so for the
network it has at the beginning of the call. -/
theorem exec_outcome {i : Input} (h : Sound cfg s) (hexec : exec cfg s i = some s') :
    Outcome (fun a n => s.roster.network a = some n) i.Fits cfg i.call s.roster s'.roster ∧
      Sound cfg s' := by
  by_cases hcall : i.call = .onInitialize .elections
  · obtain ⟨networks, call⟩ := i
    obtain rfl : call = .onInitialize .elections := hcall
    obtain ⟨new, helects, hsound⟩ := exec_elects _ (Input.Fits ⟨networks, _⟩) h
      (fun n => ⟨n, rfl, rfl⟩) hexec
    exact ⟨.steps helects.steps, hsound⟩
  · have hquiet := exec_quiet _ i.Fits h (fun _ _ hn => hn) hcall hexec
    exact ⟨hquiet.outcome, hquiet.sound⟩

end Exec

theorem run_sound {cfg : Config} {ok : State → Input → Prop} {is : List Input} {s : State}
    (h : ChainRun cfg ok is s) : Sound cfg s := by
  refine h.invariant (P := fun _ s => Sound cfg s) (sound_genesis cfg)
    fun {is s i s'} _ hs _ hexec => ?_
  exact (exec_outcome hs hexec).2

end Chain

end Timechain
