import Timechain.ChainTimers

/-!
# The round of the elections

`on_initialize` starts with the network where the last block stopped and
goes around the list of networks until the block's shards are created or
it is back where it began. `Visits` is that loop without fuel, with the
networks it visits: a prefix of the list rotated to its start. The bucket
that takes the timers of a block is empty before its elections, so that
only the limit of the block keeps a network from electing all it can.
-/

namespace Timechain

namespace Chain

/-! ## The loop -/

namespace Elections

/-- The loop of `on_initialize` from a state, a position and a number of
elections: the networks visited and what the loop ends with. -/
inductive Visits (cfg : Config) (networks : Networks) (counter0 : Nat) :
    State → Nat → Nat → List NetworkId → State × Nat × Bool → Prop
  | full {s netCounter numElections} : ¬numElections < cfg.maxElectionsPerBlock →
      Visits cfg networks counter0 s netCounter numElections [] (s, netCounter, false)
  | missing {s netCounter numElections} : numElections < cfg.maxElectionsPerBlock →
      networks.getNetworks[netCounter]? = none →
      Visits cfg networks counter0 s netCounter numElections [] (s, 0, false)
  | last {s s' netCounter numElections network elected} :
      numElections < cfg.maxElectionsPerBlock →
      networks.getNetworks[netCounter]? = some network →
      tryElectShards s cfg networks network (cfg.maxElectionsPerBlock - numElections)
        = some (s', elected) →
      (netCounter + 1) % networks.getNetworks.length = counter0 →
      Visits cfg networks counter0 s netCounter numElections [network] (s', counter0, true)
  | next {s s' netCounter numElections network elected visited result} :
      numElections < cfg.maxElectionsPerBlock →
      networks.getNetworks[netCounter]? = some network →
      tryElectShards s cfg networks network (cfg.maxElectionsPerBlock - numElections)
        = some (s', elected) →
      (netCounter + 1) % networks.getNetworks.length ≠ counter0 →
      Visits cfg networks counter0 s' ((netCounter + 1) % networks.getNetworks.length)
        (satAdd 32 numElections elected) visited result →
      Visits cfg networks counter0 s netCounter numElections (network :: visited) result

/-- `on_initialize` with the networks it visits. -/
def Initializes (cfg : Config) (networks : Networks) (s : State) (visited : List NetworkId)
    (s' : State) : Prop :=
  ∃ s₁ netCounter allNetsElected,
    Visits cfg networks s.elections.networkCounter s s.elections.networkCounter 0 visited
      (s₁, netCounter, allNetsElected) ∧
    s' = if allNetsElected then s₁
      else { s₁ with elections := { s₁.elections with networkCounter := netCounter } }

end Elections

section Rounds

variable {cfg : Config} {networks : Networks} {s s' : State} {network : NetworkId}
  {counter0 netCounter numElections fuel : Nat} {visited : List NetworkId}
  {result : State × Nat × Bool}

/-- With fuel for the networks it visits, the loop is that of the model. -/
theorem Elections.Visits.electNetworks_eq
    (h : Elections.Visits cfg networks counter0 s netCounter numElections visited result)
    (hfuel : visited.length < fuel) :
    Elections.electNetworks cfg networks counter0 fuel s netCounter numElections
      = some result := by
  induction h generalizing fuel with
  | full hnum =>
      obtain ⟨fuel, rfl⟩ := Nat.exists_eq_add_of_lt hfuel
      rw [Elections.electNetworks, if_neg hnum]
  | missing hnum hnet =>
      obtain ⟨fuel, rfl⟩ := Nat.exists_eq_add_of_lt hfuel
      rw [Elections.electNetworks, if_pos hnum, hnet]
  | last hnum hnet htry hround =>
      obtain ⟨fuel, rfl⟩ := Nat.exists_eq_add_of_lt hfuel
      rw [Elections.electNetworks, if_pos hnum, hnet]
      dsimp only
      rw [htry, Option.bind_eq_bind, Option.bind_some, if_pos hround, hround]
  | next hnum hnet htry hround _ ih =>
      obtain ⟨fuel, rfl⟩ := Nat.exists_eq_add_of_lt hfuel
      rw [Elections.electNetworks, if_pos hnum, hnet]
      dsimp only
      rw [htry, Option.bind_eq_bind, Option.bind_some, if_neg hround]
      refine ih ?_
      rw [List.length_cons]
      omega

theorem Elections.Initializes.onInitialize_eq
    (h : Elections.Initializes cfg networks s visited s')
    (hfuel : visited.length ≤ networks.getNetworks.length) :
    Elections.onInitialize s cfg networks = some s' := by
  obtain ⟨s₁, netCounter, all, hvisits, rfl⟩ := h
  simp only [Elections.onInitialize, hvisits.electNetworks_eq (Nat.lt_succ_of_le hfuel),
    Option.bind_eq_bind, Option.bind_some]
  split
  · rfl
  · rfl

/-! ## One network -/

/-- A count that goes up with every shard. -/
theorem createShards_count {create : ShardsStore → List AccountId → Option ShardsStore}
    {f : ShardsStore → Nat} (hf : ∀ sh as sh', create sh as = some sh' → f sh' = f sh + 1)
    (shardSize chunks : Nat) (members : List AccountId) (sh : ShardsStore) (num : Nat) :
    f (Elections.createShards create shardSize chunks members sh num).1 + num
      = f sh + (Elections.createShards create shardSize chunks members sh num).2.2 := by
  induction chunks generalizing members sh num with
  | zero => rfl
  | succ chunks ih =>
      rw [Elections.createShards]
      cases hcreate : create sh (members.take shardSize) with
      | none => rfl
      | some sh' =>
          have hrest := ih (members.drop shardSize) sh' (num + 1)
          rw [hf _ _ _ hcreate] at hrest
          dsimp only
          omega

theorem createShard_length (cfg : Config) (block : BlockNumber) (network : NetworkId)
    (threshold : Nat) (sh : ShardsStore) (as : List AccountId) (sh' : ShardsStore)
    (h : Shards.createShard cfg block network threshold sh as = some sh') :
    sh'.createdShards.length = sh.createdShards.length + 1 := by
  rw [createShard_created h, List.length_append, List.length_singleton]

/-- If nobody is turned away, all the chunks are elected. -/
theorem createShards_all {create : ShardsStore → List AccountId → Option ShardsStore}
    {shardSize chunks : Nat} {members : List AccountId} {sh : ShardsStore} (num : Nat)
    (h : none ∉ Elections.createResults create shardSize chunks members sh) :
    (Elections.createShards create shardSize chunks members sh num).2
      = (members.drop (chunks * shardSize), num + chunks) := by
  induction chunks generalizing members sh num with
  | zero => rw [Nat.zero_mul, List.drop_zero, Elections.createShards, Nat.add_zero]
  | succ chunks ih =>
      rw [Elections.createResults] at h
      rw [Elections.createShards]
      cases hcreate : create sh (members.take shardSize) with
      | none =>
          rw [hcreate] at h
          exact absurd List.mem_cons_self h
      | some sh' =>
          rw [hcreate] at h
          dsimp only
          rw [ih (num + 1) (fun hno => h (List.mem_cons_of_mem _ hno)), List.drop_drop,
            Nat.succ_mul, Nat.add_comm shardSize, Nat.add_right_comm, Nat.add_assoc]

/-- What electing for a network comes to when its bucket has room. -/
structure Serves (cfg : Config) (networks : Networks) (network : NetworkId)
    (maxElections : Nat) (s s' : State) (elected : Nat) : Prop where
  le : elected ≤ maxElections
  created : s'.shards.createdShards.length = s.shards.createdShards.length + elected
  blockNumber : s'.blockNumber = s.blockNumber
  bucket : s'.shards.dkgTimeoutCounter.getD (satAdd 32 s.blockNumber cfg.dkgTimeout) 0
    = s.shards.dkgTimeoutCounter.getD (satAdd 32 s.blockNumber cfg.dkgTimeout) 0 + elected
  others : ∀ n, n ≠ network →
    s'.elections.unassigned.getD n [] = s.elections.unassigned.getD n []
  exhausted : elected < maxElections →
    (s'.elections.unassigned.getD network []).length < (networks.shardSize network).toNat

/-- The only panic is that of a shard size of zero. -/
theorem tryElectShards_isSome (hsize : 0 < (networks.shardSize network).toNat)
    (maxElections : Nat) :
    ∃ s' elected,
      Elections.tryElectShards s cfg networks network maxElections = some (s', elected) := by
  simp only [Elections.tryElectShards]
  rw [if_neg (Nat.ne_of_gt hsize)]
  exact ⟨_, _, rfl⟩

theorem tryElectShards_serves {maxElections elected : Nat}
    (h : Elections.tryElectShards s cfg networks network maxElections = some (s', elected))
    (hlen : (s.elections.unassigned.getD network []).length < 2 ^ 32)
    (hroom : s.shards.dkgTimeoutCounter.getD (satAdd 32 s.blockNumber cfg.dkgTimeout) 0
      + maxElections ≤ cfg.maxElectionsPerBlock) :
    Serves cfg networks network maxElections s s' elected := by
  obtain ⟨hnone, htimers⟩ := @tryElectShards_room cfg networks s s' network maxElections elected
    hroom
  obtain ⟨hblock, hle, hbucket⟩ := htimers h
  simp only [Elections.tryElectResults] at hnone
  simp only [Elections.tryElectShards] at h
  generalize hU : s.elections.unassigned.getD network [] = unassigned at h hlen hnone
  generalize hsz : (networks.shardSize network).toNat = size at h hnone
  generalize hk : min (unassigned.length % 2 ^ 32 / size) maxElections = chunks at h hnone
  split at h
  · cases h
  · next hsize =>
      have hcreated := createShards_count (f := fun sh => sh.createdShards.length)
        (createShard_length cfg s.blockNumber network (networks.shardThreshold network).toNat)
        size chunks (unassigned.take (chunks * size)) s.shards 0
      have hall := createShards_all 0 hnone
      rw [List.drop_eq_nil_of_le (List.length_take_le ..), Nat.zero_add] at hall
      generalize Elections.createShards (Shards.createShard cfg s.blockNumber network
        (networks.shardThreshold network).toNat) size chunks (unassigned.take (chunks * size))
        s.shards 0 = created at h hcreated hall
      obtain ⟨shards, unelected, num⟩ := created
      obtain ⟨rfl, rfl⟩ := Prod.mk.injEq .. |>.mp hall
      cases h
      refine ⟨hle, hcreated, hblock, hbucket, fun n hn => ?_, fun (hlt : num < maxElections) => ?_⟩
      · dsimp only [Elections.mutateUnassigned]
        rw [StorageMap.getD_insert, if_neg hn]
      · dsimp only [Elections.mutateUnassigned]
        rw [StorageMap.getD_insert, if_pos rfl, List.append_nil, List.length_drop, hsz]
        -- The limit did not bind: what is left does not make a shard.
        have hchunks : num = unassigned.length / size := by
          rw [Nat.mod_eq_of_lt hlen] at hk
          omega
        rw [hchunks, Nat.mul_comm, ← Nat.mod_eq_sub_mul_div]
        exact Nat.mod_lt _ (Nat.pos_of_ne_zero hsize)

/-! ## The networks in turn -/

/-- What the loop comes to for the networks it has before it, up to
`total` elections in the block. -/
structure Round (cfg : Config) (networks : Networks) (rest visited : List NetworkId)
    (numElections total : Nat) (s s' : State) : Prop where
  visited : visited <+: rest
  le : total ≤ cfg.maxElectionsPerBlock
  created : s'.shards.createdShards.length + numElections
    = s.shards.createdShards.length + total
  others : ∀ n ∉ rest, s'.elections.unassigned.getD n [] = s.elections.unassigned.getD n []
  exhausted : total < cfg.maxElectionsPerBlock → ∀ n ∈ rest,
    (s'.elections.unassigned.getD n []).length < (networks.shardSize n).toNat

/-- The limit is reached. -/
theorem Round.full {rest : List NetworkId} (h : numElections ≤ cfg.maxElectionsPerBlock)
    (hnum : ¬numElections < cfg.maxElectionsPerBlock) :
    Round cfg networks rest [] numElections numElections s s where
  visited := List.nil_prefix
  le := h
  created := rfl
  others _ _ := rfl
  exhausted hlt := absurd hlt hnum

/-- One network, then the rest. -/
theorem Serves.round {s₁ s₂ : State} {elected total : Nat} {rest visited : List NetworkId}
    (h : Serves cfg networks network (cfg.maxElectionsPerBlock - numElections) s s₁ elected)
    (hnum : numElections ≤ cfg.maxElectionsPerBlock) (hnew : network ∉ rest)
    (hle : numElections + elected ≤ total)
    (hround : Round cfg networks rest visited (numElections + elected) total s₁ s₂) :
    Round cfg networks (network :: rest) (network :: visited) numElections total s s₂ where
  visited := List.cons_prefix_cons.mpr ⟨rfl, hround.visited⟩
  le := hround.le
  created := by
    have hcreated := hround.created
    rw [h.created] at hcreated
    omega
  others n hn := by
    rw [List.mem_cons, not_or] at hn
    rw [hround.others n hn.2, h.others n hn.1]
  exhausted hlt n hn := by
    rcases List.mem_cons.mp hn with rfl | hn
    · rw [hround.others _ hnew]
      exact h.exhausted (by omega)
    · exact hround.exhausted hlt n hn

/-- The position is back at the start after all the networks, not before. -/
theorem position_eq_iff {len k : Nat} (hcounter : counter0 < len) (hk : k < len) :
    (counter0 + (k + 1)) % len = counter0 ↔ k + 1 = len := by
  constructor
  · intro h
    by_contra hne
    rcases Nat.lt_or_ge (counter0 + (k + 1)) len with hlt | hge
    · rw [Nat.mod_eq_of_lt hlt] at h
      omega
    · rw [Nat.mod_eq_sub_mod hge, Nat.mod_eq_of_lt (by omega)] at h
      omega
  · rintro rfl
    rw [Nat.add_mod_right, Nat.mod_eq_of_lt hcounter]

/-- From any position the loop ends, having visited the networks before it
in turn. -/
theorem visits_round (hcounter : counter0 < networks.getNetworks.length)
    (hnodup : networks.getNetworks.Nodup)
    (hsizes : ∀ n ∈ networks.getNetworks, 0 < (networks.shardSize n).toNat)
    {rest : List NetworkId} {k : Nat} (hk : k < networks.getNetworks.length)
    (hrest : (networks.getNetworks.rotate counter0).drop k = rest)
    (hle : numElections ≤ cfg.maxElectionsPerBlock)
    (hbucket : s.shards.dkgTimeoutCounter.getD (satAdd 32 s.blockNumber cfg.dkgTimeout) 0
      = numElections)
    (hmembers : ∀ n ∈ rest, (s.elections.unassigned.getD n []).length < 2 ^ 32) :
    ∃ visited result total,
      Elections.Visits cfg networks counter0 s ((counter0 + k) % networks.getNetworks.length)
        numElections visited result ∧
      numElections ≤ total ∧
      Round cfg networks rest visited numElections total s result.1 := by
  induction rest generalizing k s numElections with
  | nil =>
      have hlen := List.drop_eq_nil_iff.mp hrest
      rw [List.length_rotate] at hlen
      omega
  | cons network rest ih =>
      by_cases hnum : numElections < cfg.maxElectionsPerBlock
      · have hget : (networks.getNetworks.rotate counter0)[k]? = some network := by
          rw [← List.head?_drop, hrest, List.head?_cons]
        have hnet : networks.getNetworks[(counter0 + k) % networks.getNetworks.length]?
            = some network := by
          rw [← hget, List.getElem?_rotate hk, Nat.add_comm]
        have hnext : (networks.getNetworks.rotate counter0).drop (k + 1) = rest := by
          rw [← List.drop_drop, hrest, List.drop_one, List.tail_cons]
        have hnew : network ∉ rest := by
          have hall := (List.nodup_rotate.mpr hnodup).sublist
            (List.drop_sublist k (networks.getNetworks.rotate counter0))
          rw [hrest] at hall
          exact (List.nodup_cons.mp hall).1
        obtain ⟨s₁, elected, htry⟩ := @tryElectShards_isSome cfg networks s network
          (hsizes network (List.mem_of_getElem? hnet)) (cfg.maxElectionsPerBlock - numElections)
        have hserves := tryElectShards_serves htry (hmembers network List.mem_cons_self) (by omega)
        have hle₁ : numElections + elected ≤ cfg.maxElectionsPerBlock := by
          have := hserves.le
          omega
        by_cases hlast : k + 1 = networks.getNetworks.length
        · -- The list is exhausted.
          have hnil : rest = [] := by
            rw [← hnext, List.drop_eq_nil_iff, List.length_rotate]
            omega
          refine ⟨[network], (s₁, counter0, true), numElections + elected, .last hnum hnet htry ?_,
            Nat.le_add_right _ _, hserves.round hle hnew (Nat.le_refl _) ?_⟩
          · rw [Nat.mod_add_mod, Nat.add_assoc, position_eq_iff hcounter hk]
            exact hlast
          · rw [hnil]
            exact ⟨List.nil_prefix, hle₁, rfl, fun _ _ => rfl, fun _ _ hn => by cases hn⟩
        · have hsum : satAdd 32 numElections elected = numElections + elected :=
            satAdd_of_lt (Nat.lt_of_le_of_lt hle₁ cfg.maxElectionsPerBlock_lt)
          obtain ⟨visited, result, total, hvisits, htotal, hround⟩ := ih (by omega) hnext hle₁
            (by rw [hserves.blockNumber, hserves.bucket, hbucket])
            (fun n hn => by
              rw [hserves.others n fun heq => hnew (heq ▸ hn)]
              exact hmembers n (List.mem_cons_of_mem _ hn))
          refine ⟨network :: visited, result, total, ?_, by omega,
            hserves.round hle hnew htotal hround⟩
          refine .next hnum hnet htry ?_ ?_
          · rw [Nat.mod_add_mod, Nat.add_assoc, Ne, position_eq_iff hcounter hk]
            exact hlast
          · rw [Nat.mod_add_mod, Nat.add_assoc, hsum]
            exact hvisits
      · exact ⟨[], (s, _, false), numElections, .full hnum, Nat.le_refl _, .full hle hnum⟩

end Rounds

/-! ## The bucket of a block -/

/-- Buckets are counted up to the one of this block, which is reached by
its elections. -/
structure Bucketed (cfg : Config) (s : State) : Prop where
  le : ∀ b, s.shards.dkgTimeoutCounter.get b ≠ none → b ≤ s.blockNumber + cfg.dkgTimeout
  due : Hook.elections ∈ s.dueHooks → ∀ b, s.shards.dkgTimeoutCounter.get b ≠ none →
    b < s.blockNumber + cfg.dkgTimeout

section Buckets

variable {cfg : Config} {networks : Networks} {ok : State → Input → Prop} {i : Input}
  {is : List Input} {s s' : State}

theorem creates_bucket {block b : BlockNumber} {sh sh' : ShardsStore}
    (h : Creates cfg block sh sh') (hb : sh'.dkgTimeoutCounter.get b ≠ none) :
    sh.dkgTimeoutCounter.get b ≠ none ∨ b ≤ block + cfg.dkgTimeout := by
  induction h with
  | refl => exact Or.inl hb
  | @tail sh₁ sh₂ _ hstep ih =>
      obtain ⟨network, threshold, as, hcreate⟩ := hstep
      obtain ⟨sh₃, hroom, hcounter⟩ := @createShard_room cfg block network threshold sh₁ as
        (createShard_fields hcreate).1
      obtain rfl : sh₂ = sh₃ := Option.some.inj (hcreate.symm.trans hroom)
      rw [hcounter, StorageMap.get_insert] at hb
      split at hb
      · next heq => exact Or.inr (heq ▸ satAdd_le 32 block cfg.dkgTimeout)
      · exact ih hb

/-- Only the elections count in a new bucket. -/
theorem Act.bucket {b : BlockNumber} (h : Act cfg i s s')
    (hb : s'.shards.dkgTimeoutCounter.get b ≠ none) :
    s.shards.dkgTimeoutCounter.get b ≠ none ∨
      i.call = .onInitialize .elections ∧ b ≤ s.blockNumber + cfg.dkgTimeout := by
  cases h with
  | closes _ hcloses => exact Or.inl (hcloses.timeoutCounter ▸ hb)
  | expires _ hcloses _ =>
      rw [hcloses.timeoutCounter] at hb
      simp only [drainBucket, StorageMap.get_remove] at hb
      split at hb
      · exact absurd rfl hb
      · exact Or.inl hb
  | @returns a _ _ _ hshards =>
      obtain ⟨online, state, hrest⟩ := shardsMemberOnline_rest s.shards a
      rw [hshards, hrest] at hb
      exact Or.inl hb
  | commits _ heq =>
      subst heq
      exact Or.inl hb
  | joins _ _ heq =>
      subst heq
      exact Or.inl hb
  | readies _ _ heq =>
      subst heq
      exact Or.inl hb
  | opens _ _ _ _ heq =>
      subst heq
      exact Or.inl hb
  | elects hcall hcreates => exact (creates_bucket hcreates hb).imp_right fun hle => ⟨hcall, hle⟩

theorem bucketed_genesis (cfg : Config) : Bucketed cfg State.genesis where
  le _ hb := absurd rfl hb
  due _ _ hb := absurd rfl hb

/-- A new block makes room, and a hook is not due again in its block. -/
theorem Bucketed.opening (h : Bucketed cfg s) (call : Call) : Bucketed cfg (opening s call) := by
  cases call with
  | newBlock =>
      refine ⟨fun b hb => ?_, fun _ b hb => ?_⟩
      · exact Nat.le_trans (h.le b hb) (Nat.add_le_add_right (Nat.le_succ _) _)
      · exact Nat.lt_of_le_of_lt (h.le b hb) (Nat.add_lt_add_right (Nat.lt_succ_self _) _)
  | onInitialize hook => exact ⟨h.le, fun hdue => h.due (List.mem_of_mem_erase hdue)⟩
  | _ => exact h

theorem exec_bucketed (hsound : Sound cfg s) (hexec : exec cfg s i = some s')
    (h : Bucketed cfg s) : Bucketed cfg s' := by
  have hact := exec_act hsound hexec
  have hopen := h.opening i.call
  obtain ⟨hblock, hhooks⟩ := hact.clock
  refine ⟨fun b hb => ?_, fun hdue b hb => ?_⟩
  · rw [hblock]
    exact (hact.bucket hb).elim (hopen.le b) And.right
  · rw [hblock]
    rw [hhooks] at hdue
    refine (hact.bucket hb).elim (hopen.due hdue b) fun helect => ?_
    rw [helect.1] at hdue
    exact absurd hdue hsound.hooks_nodup.not_mem_erase

theorem run_bucketed (h : ChainRun cfg ok is s) : Bucketed cfg s :=
  h.invariant (P := fun _ s => Bucketed cfg s) (bucketed_genesis cfg)
    fun hrun hb _ hexec => exec_bucketed (run_sound hrun) hexec hb

/-- Nothing is in the bucket that the elections will fill. -/
theorem Bucketed.empty (h : Bucketed cfg s) (hdue : Hook.elections ∈ s.dueHooks) :
    s.shards.dkgTimeoutCounter.getD (s.blockNumber + cfg.dkgTimeout) 0 = 0 := by
  have hnone : s.shards.dkgTimeoutCounter.get (s.blockNumber + cfg.dkgTimeout) = none :=
    not_not.mp fun hb => Nat.lt_irrefl _ (h.due hdue _ hb)
  rw [StorageMap.getD, hnone]
  rfl

/-- **Elections are work-conserving**: the loop ends, visits a network at
most once and creates at most `MaxElectionsPerBlock` shards. If it creates
fewer, then what is left in a network does not make a shard. The networks
are the keys of a map; the timers of the block must not be past the last
block number, nor the members of a network too many for a `u32`. -/
theorem elections_work_conserving (hrun : ChainRun cfg ok is s)
    (hdue : Hook.elections ∈ s.dueHooks) (hnodup : networks.getNetworks.Nodup)
    (hsizes : ∀ n ∈ networks.getNetworks, 0 < (networks.shardSize n).toNat)
    (hcounter : s.elections.networkCounter < networks.getNetworks.length)
    (hfar : s.blockNumber + cfg.dkgTimeout < 2 ^ 32)
    (hmembers : ∀ n ∈ networks.getNetworks,
      (s.elections.unassigned.getD n []).length < 2 ^ 32) :
    ∃ visited s',
      Elections.Initializes cfg networks (opening s (.onInitialize .elections)) visited s' ∧
      exec cfg s ⟨networks, .onInitialize .elections⟩ = some s' ∧
      visited.Nodup ∧ visited ⊆ networks.getNetworks ∧
      ∃ created ≤ cfg.maxElectionsPerBlock,
        s'.shards.createdShards.length = s.shards.createdShards.length + created ∧
        (created < cfg.maxElectionsPerBlock → ∀ n ∈ networks.getNetworks,
          (s'.elections.unassigned.getD n []).length < (networks.shardSize n).toNat) := by
  have hempty := (run_bucketed hrun).empty hdue
  rw [← satAdd_of_lt hfar] at hempty
  obtain ⟨visited, ⟨s₁, netCounter, all⟩, total, hvisits, -, hround⟩ :=
    visits_round (s := opening s (.onInitialize .elections)) hcounter hnodup hsizes (k := 0)
      (Nat.zero_lt_of_lt hcounter) rfl (Nat.zero_le _) hempty
      (fun n hn => hmembers n (List.mem_rotate.mp hn))
  rw [Nat.add_zero, Nat.mod_eq_of_lt hcounter] at hvisits
  have hsublist := hround.visited.sublist
  rw [List.drop_zero] at hsublist
  have hinit : Elections.Initializes cfg networks (opening s (.onInitialize .elections)) visited _ :=
    ⟨s₁, netCounter, all, hvisits, rfl⟩
  refine ⟨visited, _, hinit, ?_, (List.nodup_rotate.mpr hnodup).sublist hsublist,
    fun n hn => List.mem_rotate.mp (hsublist.subset hn), total, hround.le, ?_, fun hlt n hn => ?_⟩
  · have hlen := hsublist.length_le
    rw [List.length_rotate] at hlen
    simp only [exec]
    rw [if_pos hdue]
    exact hinit.onInitialize_eq hlen
  · have hcreated := hround.created
    rw [Nat.add_zero] at hcreated
    cases all with
    | true => exact hcreated
    | false => exact hcreated
  · have hleft := hround.exhausted hlt n (List.mem_rotate.mpr hn)
    cases all with
    | true => exact hleft
    | false => exact hleft

theorem exampleNetworks_cases {P : NetworkId → Prop} (h₀ : P 0) (h₁ : P 1) :
    ∀ n ∈ exampleNetworks.getNetworks, P n :=
  List.forall_mem_cons.mpr ⟨h₀, List.forall_mem_singleton.mpr h₁⟩

/-- A member is waiting when the elections are due. -/
def waitingCalls : List Call :=
  exampleBlock [exampleRegister 0, exampleHeartbeat] ++
    [.newBlock, .onInitialize .members, .onInitialize .shards]

theorem elections_work_conserving_waiting :
    ((exampleState waitingCalls).elections.unassigned.getD 0 []).length = 1 ∧
    ∃ s', exec exampleConfig (exampleState waitingCalls)
        ⟨exampleNetworks, .onInitialize .elections⟩ = some s' ∧
      ∃ created ≤ 8, s'.shards.createdShards.length = created ∧
        (created < 8 → (s'.elections.unassigned.getD 0 []).length < 1) := by
  have hrun : ChainRun exampleConfig (fun _ _ => True) (waitingCalls.map exampleInput)
      (exampleState waitingCalls) := exampleState_run (fun _ _ _ => trivial) (by decide +kernel)
  have hsizes : ∀ n ∈ exampleNetworks.getNetworks, 0 < (exampleNetworks.shardSize n).toNat :=
    exampleNetworks_cases (by decide) (by decide)
  have hmembers : ∀ n ∈ exampleNetworks.getNetworks,
      ((exampleState waitingCalls).elections.unassigned.getD n []).length < 2 ^ 32 :=
    exampleNetworks_cases (by decide +kernel) (by decide +kernel)
  obtain ⟨visited, s', -, hexec, -, -, created, hle, hcreated, hleft⟩ :=
    elections_work_conserving hrun (by decide +kernel) (by decide) hsizes (by decide +kernel)
      (by decide +kernel) hmembers
  have hnone : (exampleState waitingCalls).shards.createdShards.length = 0 := by decide +kernel
  rw [hnone, Nat.zero_add] at hcreated
  exact ⟨by decide +kernel, s', hexec, created, hle, hcreated,
    fun hlt => hleft hlt 0 (by decide)⟩

/-- One shard a block, whose timer is at the last block number. -/
def tardyConfig : Config :=
  { exampleConfig with
    maxElectionsPerBlock := 1
    maxElectionsPerBlock_lt := by decide
    dkgTimeout := 2 ^ 32 - 1 }

def otherMember : AccountId := Vector.replicate 32 3

def otherHeartbeat : Call := .sendHeartbeat (.signed otherMember)

/-- Two members wait and one is elected; then the elections are due again. -/
def tardyCalls : List Call :=
  exampleBlock [exampleRegister 0,
    .registerMember .root 0 (.sr25519 otherMember) (Vector.replicate 32 4), exampleHeartbeat,
    otherHeartbeat] ++
  exampleBlock [exampleHeartbeat, otherHeartbeat] ++
  [.newBlock, .onInitialize .members, .onInitialize .shards]

def tardyState : State :=
  Run.endState (exec tardyConfig) State.genesis (tardyCalls.map exampleInput)

def tardyElected : State :=
  Run.endState (exec tardyConfig) tardyState [exampleInput (.onInitialize .elections)]

/-- The timers of all blocks share a bucket, which is full: nobody is
elected though somebody waits. -/
theorem full_bucket_elects_nobody :
    ChainRun tardyConfig (fun _ _ => True) (tardyCalls.map exampleInput) tardyState ∧
    Hook.elections ∈ tardyState.dueHooks ∧ exampleNetworks.getNetworks.Nodup ∧
    (∀ n ∈ exampleNetworks.getNetworks, 0 < (exampleNetworks.shardSize n).toNat) ∧
    tardyState.elections.networkCounter < exampleNetworks.getNetworks.length ∧
    exec tardyConfig tardyState ⟨exampleNetworks, .onInitialize .elections⟩ = some tardyElected ∧
    tardyElected.shards.createdShards.length = tardyState.shards.createdShards.length ∧
    0 < tardyConfig.maxElectionsPerBlock ∧ 0 ∈ exampleNetworks.getNetworks ∧
    ¬(tardyElected.elections.unassigned.getD 0 []).length
      < (exampleNetworks.shardSize 0).toNat := by
  have hexec : [exampleInput (.onInitialize .elections)].foldlM (exec tardyConfig) tardyState
      = some tardyElected := Run.foldlM_eq_endState (by decide +kernel)
  simp only [List.foldlM_cons, List.foldlM_nil, bind_pure] at hexec
  refine ⟨Run.to_endState (fun _ _ _ => trivial) (by decide +kernel), by decide +kernel,
    by decide, exampleNetworks_cases (by decide) (by decide), by decide +kernel, hexec,
    by decide +kernel, by decide, by decide, by decide +kernel⟩

end Buckets

end Chain

end Timechain
