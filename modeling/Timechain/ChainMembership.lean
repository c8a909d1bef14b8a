import Timechain.ChainCalls

/-!
# Membership over whole runs

What the roster's properties say about storage in every run: an account
is in one shard at most, nobody is elected who is not registered, nobody
is left out, and an online shard has a quorum. The first three hold
only in runs without certain registrations; for each of them there is a
run that shows why.
-/

namespace Timechain

namespace Chain

open Roster (Seated Listed Placed Quorate)
open Relation (ReflTransGen)

variable {cfg : Config} {ok : State → Input → Prop} {is : List Input} {s : State}

/-- The roster over a run: a property that is kept by what the calls do
to it. -/
theorem run_roster {P : Roster AccountId NetworkId ShardId → Prop}
    (hinit : P State.genesis.roster)
    (hstep : ∀ {s : State} {i : Input} {r'}, P s.roster → ok s i →
      Outcome (fun a n => s.roster.network a = some n) i.Fits cfg i.call s.roster r' → P r')
    (h : ChainRun cfg ok is s) : P s.roster := by
  refine h.invariant (P := fun _ s => P s.roster) hinit fun {is s i s'} hrun hP hok hexec => ?_
  exact hstep hP hok (exec_outcome (run_sound hrun) hexec).1

/-- The network somebody is registered for. -/
def Call.registersFor : Call → Option NetworkId
  | .registerMember _ network _ _ => some network
  | _ => none

theorem Call.ne_registerMember {call : Call} (h : call.registersFor = none) {origin : Tasks.Origin}
    {network : NetworkId} {publicKey : PublicKey} {peerId : PeerId} :
    call ≠ .registerMember origin network publicKey peerId := by
  rintro rfl
  cases h

/-! ## One shard per account -/

/-- Membership in its three places agrees. -/
structure OneShard (s : State) : Prop where
  memberShard_iff : ∀ a shard, s.shards.memberShard.get a = some shard
    ↔ s.shards.shardMembers.get (shard, a) ≠ none
  unique : ∀ a shard shard', s.shards.shardMembers.get (shard, a) ≠ none →
    s.shards.shardMembers.get (shard', a) ≠ none → shard = shard'
  unlisted : ∀ a shard network, s.shards.shardMembers.get (shard, a) ≠ none →
    a ∉ s.elections.unassigned.getD network []

/-- An account that waits in a list or is in a shard is registered for no
other network. -/
def SameNetwork (cfg : Config) (s : State) (i : Input) : Prop :=
  ∀ origin network publicKey peerId,
    i.call = .registerMember origin network publicKey peerId → cfg.adminOrigin origin = true →
      (∀ n, publicKey.intoAccount cfg.blake2 ∈ s.elections.unassigned.getD n [] → n = network) ∧
      ∀ shard n, s.shards.memberShard.get (publicKey.intoAccount cfg.blake2) = some shard →
        s.shards.shardNetwork.get shard = some n → n = network

theorem seated_genesis (home : AccountId → NetworkId) : Seated home State.genesis.roster where
  seat_iff := iff_of_false (Option.some_ne_none _ ∘ Eq.symm) fun h =>
    StorageMap.mem_prefixKeys.mp h rfl
  waiting_nodup n := Multiset.nodup_zero
  waiting_free h := absurd h (Multiset.notMem_zero _)
  waiting_online h := absurd h (Multiset.notMem_zero _)
  waiting_home h := absurd h (Multiset.notMem_zero _)
  seat_home h := by cases h
  network_home h := by cases h

theorem Seated.oneShard {home : AccountId → NetworkId} (h : Seated home s.roster) : OneShard s := by
  have hiff : ∀ a shard, s.shards.memberShard.get a = some shard
      ↔ s.shards.shardMembers.get (shard, a) ≠ none := fun a shard =>
    h.seat_iff.trans StorageMap.mem_prefixKeys
  refine ⟨hiff, fun a shard shard' hs hs' => ?_, fun a shard network hs hlisted => ?_⟩
  · exact Option.some.inj (((hiff a shard).mpr hs).symm.trans ((hiff a shard').mpr hs'))
  · have hfree : s.shards.memberShard.get a = none :=
      h.waiting_free (Multiset.mem_coe.mpr hlisted)
    rw [(hiff a shard).mpr hs] at hfree
    cases hfree

/-- **An account belongs to at most one shard** in every run in which
nobody who waits or is in a shard is registered for another network. -/
theorem run_oneShard (h : ChainRun cfg (SameNetwork cfg) is s) : OneShard s := by
  obtain ⟨home, hseated⟩ : ∃ home, Seated home s.roster := by
    refine run_roster (P := fun r => ∃ home, Seated home r) ⟨fun _ => 0, seated_genesis _⟩ ?_ h
    rintro s i r' ⟨home, hseated⟩ hok (hsteps | ⟨hcall, hadmin, rfl⟩ | ⟨-, -, rfl⟩)
    · exact ⟨home, hseated.steps hsteps fun a n hn => hseated.network_home hn⟩
    · obtain ⟨hwait, hseat⟩ := hok _ _ _ _ hcall hadmin
      exact ⟨_, hseated.register hwait fun {shard n} => hseat shard n⟩
    · exact ⟨home, hseated.unregister _⟩
  exact Seated.oneShard hseated

/-- The member is elected into a shard. -/
def electedCalls : List Call :=
  [exampleRegister 0] ++ [exampleHeartbeat, .newBlock, .onInitialize .members,
    .onInitialize .shards, .onInitialize .elections]

/-- Nobody is registered after the first call. -/
theorem electedCalls_tail : ∀ call ∈ electedCalls.tail, call.registersFor = none := by decide

theorem run_oneShard_elected :
    (exampleState electedCalls).shards.memberShard.get exampleMember = some 0 ∧
      OneShard (exampleState electedCalls) := by
  have hregister : ChainRun exampleConfig (SameNetwork exampleConfig)
      ([exampleRegister 0].map exampleInput) (exampleState [exampleRegister 0]) := by
    have hstart : ChainRun exampleConfig (SameNetwork exampleConfig)
        (([] : List Call).map exampleInput) (exampleState []) := .start
    refine exampleState_next hstart ?_ (by decide +kernel)
    intro origin network publicKey peerId _ _
    exact ⟨fun n hn => absurd hn List.not_mem_nil, fun shard n hs => by cases hs⟩
  have hrun : ChainRun exampleConfig (SameNetwork exampleConfig) (electedCalls.map exampleInput)
      (exampleState electedCalls) := by
    refine exampleState_append hregister (fun s call hcall => ?_) (by decide +kernel)
    intro origin network publicKey peerId heq
    exact absurd heq (Call.ne_registerMember (electedCalls_tail call hcall))
  exact ⟨by decide +kernel, run_oneShard hrun⟩

/-- The member is registered for another network while it waits, and goes
offline there: it keeps its place in the first list. Shards have two
members at first, then one. -/
def reregisteredInputs : List Input :=
  (exampleBlock [exampleRegister 0, exampleHeartbeat, exampleRegister 1] ++ exampleBlock [] ++
    exampleBlock [exampleHeartbeat]).map
      (Input.mk { exampleNetworks with shardSize := fun _ => 2 }) ++
  (exampleBlock []).map exampleInput

/-- Both networks elect the member. -/
theorem reregistered_in_two_shards :
    ¬∀ (is : List Input) (s : State), ChainRun exampleConfig (fun _ _ => True) is s →
      OneShard s := by
  intro hall
  have hone := hall _ _ (Run.to_endState (fun _ _ _ => trivial) (by decide +kernel :
    (reregisteredInputs.foldlM (exec exampleConfig) State.genesis).isSome = true))
  cases hone.unique exampleMember 0 1 (by decide +kernel) (by decide +kernel)

/-! ## Who is elected -/

/-- Everything there is to know about a member. -/
structure Enrolled (m : MembersStore) (a : AccountId) : Prop where
  registered : m.memberRegistered.get a ≠ none
  network : m.memberNetwork.get a ≠ none
  peerId : m.memberPeerId.get a ≠ none
  publicKey : m.memberPublicKey.get a ≠ none

/-- Nobody is unregistered who waits in a list. -/
def UnregistersUnlisted (cfg : Config) (s : State) (i : Input) : Prop :=
  ∀ origin a, i.call = .unregisterMember origin a → cfg.adminOrigin origin = true →
    ∀ network, a ∉ s.elections.unassigned.getD network []

theorem listed_genesis : Listed State.genesis.roster where
  waiting_registered h := absurd h (Multiset.notMem_zero _)
  registered_or_seated h := absurd rfl h
  registered_known h := by cases h

theorem run_listed (h : ChainRun cfg (UnregistersUnlisted cfg) is s) : Listed s.roster := by
  refine run_roster listed_genesis ?_ h
  rintro s i r' hlisted hok (hsteps | ⟨-, -, rfl⟩ | ⟨hcall, hadmin, rfl⟩)
  · exact hlisted.steps hsteps
  · exact hlisted.register _ _
  · exact hlisted.unregister fun network ha => hok _ _ hcall hadmin network (Multiset.mem_coe.mp ha)

theorem enrolled_of_waiting (hlisted : Listed s.roster) (hknown : Known s.members) {a : AccountId}
    {network : NetworkId} (ha : a ∈ s.roster.waiting network) : Enrolled s.members a := by
  have hregistered := hlisted.waiting_registered ha
  have hnetwork : s.members.memberNetwork.get a ≠ none := hlisted.registered_known hregistered
  exact ⟨StorageMap.containsKey_iff.mp hregistered, hnetwork,
    fun hno => hnetwork ((hknown.peerId a).mp hno),
    fun hno => hnetwork ((hknown.publicKey a).mp hno)⟩

/-- **Unregistered members are never elected** in a run in which nobody
is unregistered who waits in a list: whoever is put into a shard by a
call is known with all data when it is made, and the call does not
change that. -/
theorem elected_enrolled (h : ChainRun cfg (UnregistersUnlisted cfg) is s) {i : Input}
    {s' : State} (hexec : exec cfg s i = some s') {c : Created}
    (hnew : c ∈ s'.shards.createdShards.drop s.shards.createdShards.length) {a : AccountId}
    (ha : a ∈ c.members) : Enrolled s.members a ∧ s'.members = s.members := by
  have hsound := run_sound h
  by_cases hcall : i.call = .onInitialize .elections
  · obtain ⟨networks, call⟩ := i
    obtain rfl : call = .onInitialize .elections := hcall
    obtain ⟨new, helects, -⟩ := exec_elects (fun _ _ => True) (fun _ _ => True) hsound
      (fun _ => trivial) hexec
    have hcreated : s'.shards.createdShards = s.shards.createdShards ++ new := helects.created
    rw [hcreated, List.drop_left] at hnew
    exact ⟨enrolled_of_waiting (run_listed h) hsound.known (helects.mem c hnew a ha),
      helects.members⟩
  · have hquiet := exec_quiet (fun _ _ => True) (fun _ _ => True) hsound
      (fun _ _ _ => trivial) hcall hexec
    rw [hquiet.created, List.drop_length] at hnew
    cases hnew

theorem elected_enrolled_member :
    ∃ c ∈ (exampleState electedCalls).shards.createdShards,
      exampleMember ∈ c.members ∧ Enrolled (exampleState electedCalls).members exampleMember := by
  have hrun : ChainRun exampleConfig (UnregistersUnlisted exampleConfig)
      (electedCalls.dropLast.map exampleInput) (exampleState electedCalls.dropLast) := by
    refine exampleState_run ?_ (by decide +kernel)
    simp [UnregistersUnlisted, exampleInput, electedCalls, exampleRegister, exampleHeartbeat]
  have hexec : exec exampleConfig (exampleState electedCalls.dropLast)
      (exampleInput (.onInitialize .elections)) = some (exampleState electedCalls) :=
    exampleState_exec (by decide +kernel) (by decide +kernel)
  have hnone : (exampleState electedCalls.dropLast).shards.createdShards.length = 0 := by
    decide +kernel
  obtain ⟨c, hc, hmem⟩ : ∃ c ∈ (exampleState electedCalls).shards.createdShards,
      exampleMember ∈ c.members := by decide +kernel
  have hnew : c ∈ (exampleState electedCalls).shards.createdShards.drop
      (exampleState electedCalls.dropLast).shards.createdShards.length := by
    rw [hnone]
    exact hc
  obtain ⟨henrolled, heq⟩ := elected_enrolled hrun hexec hnew hmem
  exact ⟨c, hc, hmem, heq ▸ henrolled⟩

/-- The member waits when it is unregistered. -/
def unregisteredCalls : List Call :=
  exampleBlock [exampleRegister 0, exampleHeartbeat, .unregisterMember .root exampleMember,
    .newBlock, .onInitialize .members, .onInitialize .shards]

/-- It is elected all the same. -/
theorem unregistered_elected :
    ¬∀ (is : List Input) (s : State) (i : Input) (s' : State),
      ChainRun exampleConfig (fun _ _ => True) is s → exec exampleConfig s i = some s' →
      ∀ c ∈ s'.shards.createdShards.drop s.shards.createdShards.length, ∀ a ∈ c.members,
        Enrolled s.members a := by
  intro hall
  have hrun : ChainRun exampleConfig (fun _ _ => True) (unregisteredCalls.map exampleInput)
      (exampleState unregisteredCalls) :=
    exampleState_run (fun _ _ _ => trivial) (by decide +kernel)
  have hexec : exec exampleConfig (exampleState unregisteredCalls)
      (exampleInput (.onInitialize .elections))
        = some (exampleState (unregisteredCalls ++ [.onInitialize .elections])) :=
    exampleState_exec (by decide +kernel) (by decide +kernel)
  obtain ⟨c, hc, hmem⟩ : ∃ c ∈
      (exampleState (unregisteredCalls ++ [.onInitialize .elections])).shards.createdShards.drop
        (exampleState unregisteredCalls).shards.createdShards.length,
      exampleMember ∈ c.members := by decide +kernel
  have henrolled := hall _ _ _ _ hrun hexec c hc exampleMember hmem
  have hgone : (exampleState unregisteredCalls).members.memberRegistered.get exampleMember = none :=
    by decide +kernel
  exact henrolled.registered hgone

/-! ## Runs with one network per account -/

/-- Every registration of an account names its network. -/
def OneNetwork (cfg : Config) (net : AccountId → NetworkId) (i : Input) : Prop :=
  ∀ origin network publicKey peerId, i.call = .registerMember origin network publicKey peerId →
    network = net (publicKey.intoAccount cfg.blake2)

theorem oneNetwork_of_registersFor {i : Input} {n : NetworkId}
    (h : i.call.registersFor = none ∨ i.call.registersFor = some n) :
    OneNetwork cfg (fun _ => n) i := by
  intro origin network publicKey peerId hcall
  rw [hcall] at h
  rcases h with h | h
  · cases h
  · exact Option.some.inj h

variable {net : AccountId → NetworkId}

theorem register_seated {r : Roster AccountId NetworkId ShardId} (h : Seated net r)
    (a : AccountId) : Seated net (r.register a (net a)) := by
  have hupdate := h.register (a := a) (n := net a) (fun m hm => h.waiting_home hm)
    fun {x m} hx hm => (Option.some.inj ((h.seat_home hx).symm.trans hm)).symm
  rwa [Function.update_eq_self] at hupdate

/-- The roster over a run with one network per account. -/
theorem run_seated {P : Roster AccountId NetworkId ShardId → Prop}
    (hone : ∀ s i, ok s i → OneNetwork cfg net i) (hinit : P State.genesis.roster)
    (hsteps : ∀ {s : State} {i : Input} {r'} {lists : AccountId → NetworkId → Prop},
      (∀ a n, lists a n → n = net a) → Seated net s.roster → P s.roster → ok s i →
      ReflTransGen (Roster.Step lists i.Fits) s.roster r' → P r')
    (hregister : ∀ {s : State} {i : Input} {origin publicKey peerId}, P s.roster → ok s i →
      i.call = .registerMember origin (net (publicKey.intoAccount cfg.blake2)) publicKey peerId →
      cfg.adminOrigin origin = true → P (s.roster.register (publicKey.intoAccount cfg.blake2)
        (net (publicKey.intoAccount cfg.blake2))))
    (hunregister : ∀ {r a}, P r → P (r.unregister a)) (h : ChainRun cfg ok is s) :
    Seated net s.roster ∧ P s.roster := by
  refine run_roster (P := fun r => Seated net r ∧ P r) ⟨seated_genesis net, hinit⟩ ?_ h
  rintro s i r' ⟨hseated, hP⟩ hok (hst | ⟨hcall, hadmin, rfl⟩ | ⟨-, -, rfl⟩)
  · have hlists : ∀ a n, s.roster.network a = some n → n = net a :=
      fun _ _ hn => hseated.network_home hn
    exact ⟨hseated.steps hst hlists, hsteps hlists hseated hP hok hst⟩
  · obtain rfl := hone _ _ hok _ _ _ _ hcall
    exact ⟨register_seated hseated _, hregister hP hok hcall hadmin⟩
  · exact ⟨hseated.unregister _, hunregister hP⟩

/-! ## Nobody is stranded -/

/-- An account that is online when it is registered has its place. -/
def RegistersPlaced (cfg : Config) (s : State) (i : Input) : Prop :=
  ∀ origin network publicKey peerId,
    i.call = .registerMember origin network publicKey peerId → cfg.adminOrigin origin = true →
      s.members.memberOnline.get (publicKey.intoAccount cfg.blake2) ≠ none →
        s.shards.memberShard.get (publicKey.intoAccount cfg.blake2) ≠ none ∨
          publicKey.intoAccount cfg.blake2 ∈ s.elections.unassigned.getD network []

/-- Every live member is in a shard or in the list of its network. -/
def NoneStranded (net : AccountId → NetworkId) (s : State) : Prop :=
  ∀ a, s.members.memberRegistered.get a ≠ none → s.members.memberOnline.get a ≠ none →
    s.shards.memberShard.get a ≠ none ∨ a ∈ s.elections.unassigned.getD (net a) []

theorem noneStranded_iff : NoneStranded net s ↔ Placed net s.roster := by
  refine forall_congr' fun a => ?_
  rw [← StorageMap.containsKey_iff, ← StorageMap.containsKey_iff, ← Multiset.mem_coe]
  rfl

/-- **No live member is stranded** in a run with one network per account
in which every account that is online when it is registered has its
place. -/
theorem run_noneStranded
    (h : ChainRun cfg (fun s i => OneNetwork cfg net i ∧ RegistersPlaced cfg s i) is s) :
    NoneStranded net s := by
  rw [noneStranded_iff]
  refine (run_seated (fun _ _ hok => hok.1) ?_ ?_ ?_ ?_ h).2
  · intro a hreg
    cases hreg
  · intro s i r' lists hlists hseated hplaced _ hsteps
    exact hplaced.steps hsteps hlists hseated
  · intro s i origin publicKey peerId hplaced hok hcall hadmin
    refine hplaced.register fun honline => ?_
    exact (hok.2 _ _ _ _ hcall hadmin (StorageMap.containsKey_iff.mp honline)).imp_right
      Multiset.mem_coe.mpr
  · exact fun hplaced => hplaced.unregister _

theorem run_noneStranded_elected :
    (exampleState electedCalls).members.memberOnline.get exampleMember ≠ none ∧
      NoneStranded (fun _ => 0) (exampleState electedCalls) := by
  have hstart : ChainRun exampleConfig
      (fun s i => OneNetwork exampleConfig (fun _ => 0) i ∧ RegistersPlaced exampleConfig s i)
      (([] : List Call).map exampleInput) (exampleState []) := .start
  have hplaced : RegistersPlaced exampleConfig (exampleState [])
      (exampleInput (exampleRegister 0)) := fun _ _ _ _ _ _ honline => absurd rfl honline
  have hregister := exampleState_next hstart ⟨oneNetwork_of_registersFor (Or.inr rfl), hplaced⟩
    (by decide +kernel)
  have hrun : ChainRun exampleConfig
      (fun s i => OneNetwork exampleConfig (fun _ => 0) i ∧ RegistersPlaced exampleConfig s i)
      (electedCalls.map exampleInput) (exampleState electedCalls) := by
    refine exampleState_append hregister (fun s call hcall => ?_) (by decide +kernel)
    have hnone := electedCalls_tail call hcall
    exact ⟨oneNetwork_of_registersFor (Or.inl hnone),
      fun _ _ _ _ heq => absurd heq (Call.ne_registerMember hnone)⟩
  exact ⟨by decide +kernel, run_noneStranded hrun⟩

/-- The member is unregistered while it is in a shard, and registered
again when the shard is gone. -/
def strandedCalls : List Call :=
  exampleBlock electedCalls ++ [.onInitialize .tasks, .unregisterMember .root exampleMember,
    .forceShardOffline .root 0, exampleRegister 0]

/-- It has never been offline, and nobody will elect it. -/
theorem reregistered_stranded :
    ¬∀ (net : AccountId → NetworkId) (is : List Input) (s : State),
      ChainRun exampleConfig (fun _ i => OneNetwork exampleConfig net i) is s →
        NoneStranded net s := by
  intro hall
  have hrun : ChainRun exampleConfig (fun _ i => OneNetwork exampleConfig (fun _ => 0) i)
      (strandedCalls.map exampleInput) (exampleState strandedCalls) := by
    have hcalls : ∀ call ∈ strandedCalls,
        call.registersFor = none ∨ call.registersFor = some 0 := by decide
    exact exampleState_run (fun _ call hcall => oneNetwork_of_registersFor (hcalls call hcall))
      (by decide +kernel)
  have hno : (exampleState strandedCalls).shards.memberShard.get exampleMember = none ∧
      exampleMember ∉ (exampleState strandedCalls).elections.unassigned.getD 0 [] := by
    decide +kernel
  rcases hall _ _ _ hrun exampleMember (by decide +kernel) (by decide +kernel) with hs | hu
  · exact hs hno.1
  · exact hno.2 hu

/-! ## Heartbeats -/

/-- The call times heartbeats out. -/
def TimesOut (cfg : Config) (s : State) (i : Input) : Prop :=
  i.call = .onInitialize .members ∧ s.blockNumber % cfg.heartbeatTimeout = 0

/-- A heartbeat is only taken back by a timeout. -/
theorem exec_heartbeat {i : Input} {s' : State} (h : Sound cfg s) (hexec : exec cfg s i = some s')
    (hno : ¬TimesOut cfg s i) {a : AccountId} (ha : s.members.heartbeat.get a ≠ none) :
    s'.members.heartbeat.get a ≠ none := by
  have of_still : ∀ {s₀ s₁ : State}, Still s₀ s₁ → s₀.members.heartbeat = s.members.heartbeat →
      s₁.members.heartbeat.get a ≠ none := by
    intro s₀ s₁ hstill heq
    rw [hstill.heartbeat, heq]
    exact ha
  obtain ⟨networks, call⟩ := i
  cases exec_ends hexec with
  | fails => exact ha
  | newBlock => exact ha
  | @onInitialize hook _ _ hrun =>
      cases hook with
      | members =>
          simp only [runHook, Members.onInitialize] at hrun
          split at hrun
          · cases hrun
          · split at hrun
            · next hmod => exact absurd ⟨rfl, hmod⟩ hno
            · cases hrun
              exact ha
      | shards =>
          exact of_still (@timeoutDkgs_moves (fun _ _ => True) (fun _ _ => True) _ _ _ _ _
            hrun).2.1 rfl
      | elections =>
          obtain ⟨new, helects, -⟩ := exec_elects (fun _ _ => True) (fun _ _ => True) h
            (fun _ => trivial) hexec
          rw [helects.members]
          exact ha
      | tasks =>
          obtain ⟨tasks, -, rfl⟩ := Option.map_eq_some_iff.mp hrun
          exact ha
  | registerMember => exact ha
  | unregisterMember _ hok => exact of_still (executeUnregisterMember_roster hok).2 rfl
  | sendHeartbeat hok =>
      rw [executeSendHeartbeat_heartbeat hok]
      split
      · exact Option.some_ne_none ()
      · exact ha
  | commit hok =>
      exact of_still (@executeCommit_moves (fun _ _ => True) (fun _ _ => True) _ _ _ _ _ _ _
        h.ready hok).2.1 rfl
  | ready hok =>
      exact of_still (@executeReady_moves (fun _ _ => True) (fun _ _ => True) _ _ _ _ _ _
        hok).2.1 rfl
  | @forceShardOffline _ shard _ _ hok =>
      exact of_still (removeShardsOffline_roster (List.nodup_singleton shard) hok).2 rfl
  | tasks _ hok =>
      obtain ⟨tasks, -, rfl⟩ := Option.map_eq_some_iff.mp hok
      exact ha

theorem exec_sendHeartbeat (networks : Networks) {a : AccountId} {s₁ : State}
    (h : Members.executeSendHeartbeat s a = .ok s₁) :
    exec cfg s ⟨networks, .sendHeartbeat (.signed a)⟩ = some s₁ := by
  show dispatch s (some <$> Members.executeSendHeartbeat s a) = some s₁
  rw [h]
  rfl

/-- Who has sent a heartbeat stays online in the next timeout. -/
theorem membersHook_online {networks : Networks} {s' : State} (h : Sound cfg s)
    (hexec : exec cfg s ⟨networks, .onInitialize .members⟩ = some s') {a : AccountId}
    (ha : s.members.heartbeat.get a ≠ none) : s'.members.memberOnline.get a ≠ none := by
  have honline : ∀ {s₁ : State}, Beats s₁ →
      s₁.members.heartbeat.get a ≠ none ∨ a ∈ s₁.members.timedOut →
      s₁.members.memberOnline.get a ≠ none := fun hbeats hor =>
    StorageMap.containsKey_iff.mp ((hbeats.online_iff a).mpr hor)
  have hbeats' := (exec_outcome h hexec).2.beats
  simp only [exec] at hexec
  split at hexec
  · simp only [runHook, Members.onInitialize] at hexec
    split at hexec
    · cases hexec
    · split at hexec
      · have hsound : Sound cfg { s with dueHooks := s.dueHooks.erase .members } :=
          h.erase (by decide)
        obtain ⟨-, -, -, htimed⟩ := @timeoutHeartbeats_moves (fun _ _ => True) _ _
          (fun _ _ => True) _ _ hexec hsound.count_lt hsound.beats fun _ _ _ => trivial
        exact honline hbeats' (Or.inr (htimed a ha))
      · cases hexec
        exact honline hbeats' (Or.inl ha)
  · cases hexec

/-- **Heartbeat timeouts are exact** in every run: the online accounts are
those with a heartbeat and those whose time is running out, and nobody
goes offline who has sent a heartbeat since the timeout before. -/
theorem heartbeats_exact (h : ChainRun cfg ok is s) :
    (∀ a, s.members.memberOnline.get a ≠ none ↔
      s.members.heartbeat.get a ≠ none ∨ a ∈ s.members.timedOut) ∧
    (∀ a ∈ s.members.timedOut, s.members.heartbeat.get a = none) ∧
    s.members.timedOut.Nodup ∧
    ∀ (a : AccountId) (s₁ : State) (later : List Input) (s₂ : State) (networks : Networks)
      (s₃ : State), Members.executeSendHeartbeat s a = .ok s₁ →
      Run (exec cfg) (fun s i => ¬TimesOut cfg s i) s₁ later s₂ →
      exec cfg s₂ ⟨networks, .onInitialize .members⟩ = some s₃ →
      s₃.members.memberOnline.get a ≠ none := by
  have hsound := run_sound h
  refine ⟨fun a => ?_, hsound.beats.disjoint, hsound.beats.nodup, ?_⟩
  · rw [← StorageMap.containsKey_iff]
    exact hsound.beats.online_iff a
  · intro a s₁ later s₂ networks s₃ hbeat hlater hhook
    have hsound₁ : Sound cfg s₁ := (exec_outcome hsound (exec_sendHeartbeat networks hbeat)).2
    have hsent : s₁.members.heartbeat.get a ≠ none := by
      rw [executeSendHeartbeat_heartbeat hbeat, if_pos rfl]
      exact Option.some_ne_none ()
    obtain ⟨hsound₂, hstill⟩ : Sound cfg s₂ ∧ s₂.members.heartbeat.get a ≠ none := by
      refine hlater.invariant (P := fun _ s => Sound cfg s ∧ s.members.heartbeat.get a ≠ none)
        ⟨hsound₁, hsent⟩ ?_
      rintro is s i s' - ⟨hs, hget⟩ hno hexec
      exact ⟨(exec_outcome hs hexec).2, exec_heartbeat hs hexec hno hget⟩
    exact membersHook_online hsound₂ hhook hstill

/-- The member is registered, in the first block. -/
def beatCalls : List Call := exampleBlock [exampleRegister 0]

theorem heartbeats_exact_example :
    (exampleState (beatCalls ++ [exampleHeartbeat] ++ [.newBlock]
      ++ [.onInitialize .members])).members.memberOnline.get exampleMember ≠ none := by
  have hrun : ChainRun exampleConfig (fun _ _ => True) (beatCalls.map exampleInput)
      (exampleState beatCalls) := exampleState_run (fun _ _ _ => trivial) (by decide +kernel)
  obtain ⟨s₁, hbeat⟩ : ∃ s₁, Members.executeSendHeartbeat (exampleState beatCalls) exampleMember
      = .ok s₁ := ⟨_, rfl⟩
  obtain rfl : exampleState (beatCalls ++ [exampleHeartbeat]) = s₁ := by
    have hexec := @exampleState_exec beatCalls exampleHeartbeat (by decide +kernel)
      (by decide +kernel)
    exact Option.some.inj (hexec.symm.trans (exec_sendHeartbeat exampleNetworks hbeat))
  have hblock : Run (exec exampleConfig) (fun s i => ¬TimesOut exampleConfig s i)
      (exampleState (beatCalls ++ [exampleHeartbeat])) [exampleInput .newBlock]
      (exampleState (beatCalls ++ [exampleHeartbeat] ++ [.newBlock])) :=
    .next .start (fun hno => nomatch hno.1)
      (exampleState_exec (by decide +kernel) (by decide +kernel))
  exact (heartbeats_exact hrun).2.2.2 exampleMember _ _ _ exampleNetworks _ hbeat hblock
    (exampleState_exec (by decide +kernel) (by decide +kernel))

/-! ## Quorums -/

/-- Every shard is to have at least as many members as its threshold, and
a threshold of one at least. -/
def Sized (i : Input) : Prop :=
  ∀ network, 1 ≤ i.networks.shardThreshold network ∧
    i.networks.shardThreshold network ≤ i.networks.shardSize network

/-- How many members of a shard are online. -/
def membersOnline (cfg : Config) (s : State) (shard : ShardId) : Nat :=
  ((Shards.getShardMembers cfg s.shards shard).filter fun member =>
    s.members.memberOnline.containsKey member.1).length

theorem membersOnline_eq (cfg : Config) (s : State) (shard : ShardId) :
    membersOnline cfg s shard = (s.roster.present shard).card := by
  have hcrew : (((Shards.getShardMembers cfg s.shards shard).map Prod.fst : List AccountId) :
      Multiset AccountId) = (s.roster.crew shard).val := StorageMap.coe_iterPrefix ..
  have hfilter : (s.roster.present shard).val
      = (((Shards.getShardMembers cfg s.shards shard).map Prod.fst).filter
        (fun a => s.roster.online a) : List AccountId) := by
    rw [Roster.present, Finset.filter_val, ← hcrew, Multiset.filter_coe]
    simp
  rw [Finset.card_def, hfilter, Multiset.coe_card, List.filter_map, List.length_map]
  rfl

theorem quorate_genesis : Quorate State.genesis.roster where
  count_eq h := absurd rfl h
  crew_lt x := by
    have hempty : State.genesis.roster.crew x = ∅ :=
      Finset.eq_empty_of_forall_notMem fun a ha => StorageMap.mem_prefixKeys.mp ha rfl
    rw [hempty]
    exact Nat.two_pow_pos 16
  pending_online h := by cases h
  quorum h := by cases h
  serving h := by cases h
  live h := absurd rfl h

/-- **An online shard has a signing quorum** in every run with one network
per account and shards of a sensible size. -/
theorem online_shard_quorum
    (h : ChainRun cfg (fun _ i => OneNetwork cfg net i ∧ Sized i) is s) {shard : ShardId}
    (honline : s.shards.shardState.get shard = some .online) :
    s.shards.shardMembersOnline.getD shard 0 = membersOnline cfg s shard ∧
      ∃ threshold, s.shards.shardThreshold.get shard = some threshold ∧
        threshold ≤ membersOnline cfg s shard := by
  obtain ⟨hseated, hquorate⟩ : Seated net s.roster ∧ Quorate s.roster := by
    refine run_seated (fun _ _ hok => hok.1) quorate_genesis ?_ ?_ ?_ h
    · intro s i r' lists hlists hseated hquorate hok hsteps
      refine hquorate.steps hsteps hlists ?_ hseated
      rintro _ _ ⟨network, rfl, rfl⟩
      exact ⟨UInt16.le_iff_toNat_le.mp (hok.2 network).2, UInt16.toNat_lt _⟩
    · exact fun hquorate _ _ _ => hquorate.register _ _
    · exact fun hquorate => hquorate.unregister _
  have hserving := hquorate.serving honline (by decide)
  obtain ⟨threshold, ht, hle⟩ := hquorate.quorum honline (by decide)
  rw [membersOnline_eq, ← hquorate.count_eq hserving]
  exact ⟨rfl, threshold, ht, hle⟩

/-- The elected member generates the key. -/
def onlineCalls : List Call := electedCalls ++ [.onInitialize .tasks] ++ exampleKeygen

theorem online_shard_quorum_example :
    (exampleState onlineCalls).shards.shardState.get 0 = some .online ∧
      (exampleState onlineCalls).shards.shardMembersOnline.getD 0 0
        = membersOnline exampleConfig (exampleState onlineCalls) 0 ∧
      ∃ threshold, (exampleState onlineCalls).shards.shardThreshold.get 0 = some threshold ∧
        threshold ≤ membersOnline exampleConfig (exampleState onlineCalls) 0 := by
  have hcalls : ∀ call ∈ onlineCalls,
      call.registersFor = none ∨ call.registersFor = some 0 := by decide
  have hrun : ChainRun exampleConfig
      (fun _ i => OneNetwork exampleConfig (fun _ => 0) i ∧ Sized i)
      (onlineCalls.map exampleInput) (exampleState onlineCalls) :=
    exampleState_run (fun _ call hcall => ⟨oneNetwork_of_registersFor (hcalls call hcall),
      fun _ => ⟨UInt16.le_refl 1, UInt16.le_refl 1⟩⟩) (by decide +kernel)
  have honline : (exampleState onlineCalls).shards.shardState.get 0 = some .online := by
    decide +kernel
  exact ⟨honline, online_shard_quorum hrun honline⟩

end Chain

end Timechain
