import Timechain.ChainLife

/-!
# The deadline of key generation

A shard gets a timer when it is created: an entry in the bucket of the
block `DkgTimeout` later, which the shards' hook of that block drains. A
bucket has room for the shards of one block, so that as long as every
block elects once no shard is turned away.

`Timed` says where the timers are: all of them up to a block `hi`, and
those of the shards without a key not before a block `lo`. A block moves
the two on, one with the hook of the shards and one with that of the
elections.
-/

namespace Timechain

namespace Chain

/-! ## What `create_shard` returns -/

namespace Elections

/-- The results of the calls in the loop over the chunks. -/
def createResults (create : ShardsStore → List AccountId → Option ShardsStore) (shardSize : Nat) :
    (chunks : Nat) → List AccountId → ShardsStore → List (Option ShardsStore)
  | 0, _, _ => []
  | chunks + 1, members, s =>
      match create s (members.take shardSize) with
      | none => [none]
      | some s' => some s' :: createResults create shardSize chunks (members.drop shardSize) s'

/-- The results in `try_elect_shards`. -/
def tryElectResults (s : State) (cfg : Config) (networks : Networks) (network : NetworkId)
    (maxElections : Nat) : List (Option ShardsStore) :=
  let shardSize := (networks.shardSize network).toNat
  let shardThreshold := (networks.shardThreshold network).toNat
  let unassigned := s.elections.unassigned.getD network []
  let chunks := min (unassigned.length % 2 ^ 32 / shardSize) maxElections
  createResults (Shards.createShard cfg s.blockNumber network shardThreshold) shardSize chunks
    (unassigned.take (chunks * shardSize)) s.shards

/-- The results in the loop over the networks. -/
def electResults (cfg : Config) (networks : Networks) (counter0 : Nat) :
    (fuel : Nat) → State → (netCounter numElections : Nat) → List (Option ShardsStore)
  | 0, _, _, _ => []
  | fuel + 1, s, netCounter, numElections =>
      if numElections < cfg.maxElectionsPerBlock then
        match networks.getNetworks[netCounter]? with
        | none => []
        | some network =>
            let results := tryElectResults s cfg networks network
              (cfg.maxElectionsPerBlock - numElections)
            match tryElectShards s cfg networks network
              (cfg.maxElectionsPerBlock - numElections) with
            | none => results
            | some (s, elected) =>
                let netCounter := (netCounter + 1) % networks.getNetworks.length
                if netCounter = counter0 then results
                else results ++ electResults cfg networks counter0 fuel s netCounter
                  (satAdd 32 numElections elected)
      else []

/-- What `create_shard` returns in the elections of a block. -/
def createShardResults (s : State) (cfg : Config) (networks : Networks) :
    List (Option ShardsStore) :=
  electResults cfg networks s.elections.networkCounter (networks.getNetworks.length + 1) s
    s.elections.networkCounter 0

end Elections

/-- Storage after the last call that succeeded. -/
def lastStore (sh : ShardsStore) (results : List (Option ShardsStore)) : ShardsStore :=
  results.foldl (fun sh result => result.getD sh) sh

section Results

variable {cfg : Config} {networks : Networks} {s s' : State} {block : BlockNumber}
  {network : NetworkId} {threshold : Nat}

theorem createShards_lastStore (create : ShardsStore → List AccountId → Option ShardsStore)
    (shardSize chunks : Nat) (members : List AccountId) (sh : ShardsStore) (num : Nat) :
    (Elections.createShards create shardSize chunks members sh num).1
      = lastStore sh (Elections.createResults create shardSize chunks members sh) := by
  induction chunks generalizing members sh num with
  | zero => rfl
  | succ chunks ih =>
      rw [Elections.createShards, Elections.createResults]
      cases create sh (members.take shardSize) with
      | none => rfl
      | some sh' => exact ih _ _ _

theorem tryElectShards_lastStore {maxElections elected : Nat}
    (h : Elections.tryElectShards s cfg networks network maxElections = some (s', elected)) :
    s'.shards = lastStore s.shards
      (Elections.tryElectResults s cfg networks network maxElections) := by
  simp only [Elections.tryElectShards] at h
  split at h
  · cases h
  · cases h
    exact createShards_lastStore ..

theorem electNetworks_lastStore {counter0 fuel netCounter numElections : Nat}
    {result : State × Nat × Bool}
    (h : Elections.electNetworks cfg networks counter0 fuel s netCounter numElections
      = some result) :
    result.1.shards = lastStore s.shards
      (Elections.electResults cfg networks counter0 fuel s netCounter numElections) := by
  induction fuel generalizing s netCounter numElections with
  | zero =>
      cases h
      rfl
  | succ fuel ih =>
      rw [Elections.electNetworks] at h
      rw [Elections.electResults]
      split
      · next hnum =>
          rw [if_pos hnum] at h
          split
          · next hnet =>
              rw [hnet] at h
              cases h
              rfl
          · next network hnet =>
              rw [hnet] at h
              obtain ⟨⟨s₁, elected⟩, h₁, h⟩ := Option.bind_eq_some_iff.mp h
              have hlast := tryElectShards_lastStore h₁
              dsimp only at h ⊢
              rw [h₁]
              dsimp only
              split
              · next hround =>
                  rw [if_pos hround] at h
                  cases h
                  exact hlast
              · next hround =>
                  rw [if_neg hround] at h
                  rw [ih h, hlast, lastStore, lastStore, lastStore, List.foldl_append]
      · next hnum =>
          rw [if_neg hnum] at h
          cases h
          rfl

/-- The results are those of the calls that are made. -/
theorem onInitialize_lastStore (h : Elections.onInitialize s cfg networks = some s') :
    s'.shards = lastStore s.shards (Elections.createShardResults s cfg networks) := by
  obtain ⟨⟨s₁, netCounter, all⟩, h₁, h⟩ := Option.bind_eq_some_iff.mp h
  have hlast := electNetworks_lastStore h₁
  dsimp only at h
  split at h
  · cases h
    exact hlast
  · cases h
    exact hlast

/-- A bucket takes one timer more. -/
theorem createShard_room {sh : ShardsStore} {as : List AccountId}
    (h : sh.dkgTimeoutCounter.getD (satAdd 32 block cfg.dkgTimeout) 0
      < cfg.maxElectionsPerBlock) :
    ∃ sh', Shards.createShard cfg block network threshold sh as = some sh' ∧
      sh'.dkgTimeoutCounter = sh.dkgTimeoutCounter.insert (satAdd 32 block cfg.dkgTimeout)
        (sh.dkgTimeoutCounter.getD (satAdd 32 block cfg.dkgTimeout) 0 + 1) := by
  have hsucc : satSucc 32 (sh.dkgTimeoutCounter.getD (satAdd 32 block cfg.dkgTimeout) 0)
      = sh.dkgTimeoutCounter.getD (satAdd 32 block cfg.dkgTimeout) 0 + 1 :=
    satAdd_of_lt (Nat.lt_of_le_of_lt h cfg.maxElectionsPerBlock_lt)
  refine ⟨_, if_pos h, ?_⟩
  dsimp only
  rw [hsucc]

/-- Shards for which there is room are all created. -/
theorem createShards_room {shardSize chunks : Nat} (members : List AccountId) {sh : ShardsStore}
    (num : Nat) (h : sh.dkgTimeoutCounter.getD (satAdd 32 block cfg.dkgTimeout) 0 + chunks
      ≤ cfg.maxElectionsPerBlock) :
    none ∉ Elections.createResults (Shards.createShard cfg block network threshold) shardSize
      chunks members sh ∧
    (Elections.createShards (Shards.createShard cfg block network threshold) shardSize chunks
      members sh num).2.2 = num + chunks ∧
    (Elections.createShards (Shards.createShard cfg block network threshold) shardSize chunks
      members sh num).1.dkgTimeoutCounter.getD (satAdd 32 block cfg.dkgTimeout) 0
        = sh.dkgTimeoutCounter.getD (satAdd 32 block cfg.dkgTimeout) 0 + chunks := by
  induction chunks generalizing members sh num with
  | zero => exact ⟨List.not_mem_nil, rfl, rfl⟩
  | succ chunks ih =>
      obtain ⟨sh', hcreate, hcounter⟩ := @createShard_room cfg block network threshold sh
        (members.take shardSize) (by omega)
      have hnext : sh'.dkgTimeoutCounter.getD (satAdd 32 block cfg.dkgTimeout) 0
          = sh.dkgTimeoutCounter.getD (satAdd 32 block cfg.dkgTimeout) 0 + 1 := by
        rw [hcounter, StorageMap.getD_insert, if_pos rfl]
      obtain ⟨hnone, hnum, hcount⟩ := @ih (members.drop shardSize) sh' (num + 1) (by omega)
      rw [Elections.createResults, Elections.createShards, hcreate]
      refine ⟨?_, ?_, ?_⟩
      · exact List.not_mem_cons_of_ne_of_not_mem (Option.some_ne_none sh').symm hnone
      · rw [hnum]
        omega
      · rw [hcount, hnext]
        omega

theorem tryElectShards_room {maxElections elected : Nat}
    (hroom : s.shards.dkgTimeoutCounter.getD (satAdd 32 s.blockNumber cfg.dkgTimeout) 0
      + maxElections ≤ cfg.maxElectionsPerBlock) :
    none ∉ Elections.tryElectResults s cfg networks network maxElections ∧
    (Elections.tryElectShards s cfg networks network maxElections = some (s', elected) →
      s'.blockNumber = s.blockNumber ∧ elected ≤ maxElections ∧
      s'.shards.dkgTimeoutCounter.getD (satAdd 32 s.blockNumber cfg.dkgTimeout) 0
        = s.shards.dkgTimeoutCounter.getD (satAdd 32 s.blockNumber cfg.dkgTimeout) 0
          + elected) := by
  generalize hU : s.elections.unassigned.getD network [] = unassigned
  generalize hk : min (unassigned.length % 2 ^ 32 / (networks.shardSize network).toNat)
    maxElections = chunks
  have hmax : chunks ≤ maxElections := hk ▸ Nat.min_le_right _ _
  obtain ⟨hnone, hnum, hcount⟩ := @createShards_room cfg s.blockNumber network
    (networks.shardThreshold network).toNat (networks.shardSize network).toNat chunks
    (unassigned.take (chunks * (networks.shardSize network).toNat)) s.shards 0 (by omega)
  refine ⟨?_, fun h => ?_⟩
  · simp only [Elections.tryElectResults, hU, hk]
    exact hnone
  · simp only [Elections.tryElectShards, hU, hk] at h
    split at h
    · cases h
    · cases h
      refine ⟨rfl, ?_, ?_⟩
      · rw [hnum]
        omega
      · rw [hnum, hcount, Nat.zero_add]

/-- Nobody is turned away in a block whose bucket counts this block's
elections. -/
theorem electResults_room {counter0 fuel netCounter numElections : Nat}
    (h : s.shards.dkgTimeoutCounter.getD (satAdd 32 s.blockNumber cfg.dkgTimeout) 0
      = numElections) :
    none ∉ Elections.electResults cfg networks counter0 fuel s netCounter numElections := by
  induction fuel generalizing s netCounter numElections with
  | zero => exact List.not_mem_nil
  | succ fuel ih =>
      rw [Elections.electResults]
      split
      · next hnum =>
          split
          · exact List.not_mem_nil
          · next network _ =>
              dsimp only
              have hroom := fun s' elected => @tryElectShards_room cfg networks s s' network
                (cfg.maxElectionsPerBlock - numElections) elected (by omega)
              cases htry : Elections.tryElectShards s cfg networks network
                  (cfg.maxElectionsPerBlock - numElections) with
              | none => exact (hroom s 0).1
              | some result =>
                  obtain ⟨s₁, elected⟩ := result
                  obtain ⟨hnone, hspec⟩ := hroom s₁ elected
                  obtain ⟨hblock, hle, hcount⟩ := hspec htry
                  dsimp only
                  split
                  · exact hnone
                  · refine fun hno => (List.mem_append.mp hno).elim hnone (ih ?_)
                    rw [hblock, hcount, h, satAdd_of_lt]
                    have := cfg.maxElectionsPerBlock_lt
                    omega
      · exact List.not_mem_nil

end Results

/-! ## Where the timers are -/

structure Timed (sh : ShardsStore) (lo hi : BlockNumber) : Prop where
  counter : ∀ b, sh.dkgTimeoutCounter.getD b 0 = (sh.dkgTimeout.prefixKeys b).card
  known : ∀ b x, sh.dkgTimeout.get (b, x) ≠ none → x < sh.shardIdCounter ∧ b ≤ hi
  pending : ∀ x < sh.shardIdCounter, (sh.shardState.get x).any ShardStatus.isPending = true →
    ∃ b, sh.dkgTimeout.get (b, x) ≠ none ∧ lo ≤ b

/-- No timers are added for the shards there are. -/
structure Ages (sh sh' : ShardsStore) : Prop where
  counter : sh.shardIdCounter ≤ sh'.shardIdCounter
  timeout : ∀ b x, x < sh.shardIdCounter → sh'.dkgTimeout.get (b, x) ≠ none →
    sh.dkgTimeout.get (b, x) ≠ none

section Timed

variable {cfg : Config} {i : Input} {s s' : State} {sh sh' sh'' : ShardsStore}
  {lo lo' hi hi' : BlockNumber}

theorem Ages.of_eq (hcounter : sh'.shardIdCounter = sh.shardIdCounter)
    (htimeout : sh'.dkgTimeout = sh.dkgTimeout) : Ages sh sh' :=
  ⟨Nat.le_of_eq hcounter.symm, fun _ _ _ hx => htimeout ▸ hx⟩

theorem Ages.trans (h : Ages sh sh') (h' : Ages sh' sh'') : Ages sh sh'' where
  counter := Nat.le_trans h.counter h'.counter
  timeout b x hx hb :=
    h.timeout b x hx (h'.timeout b x (Nat.lt_of_lt_of_le hx h.counter) hb)

theorem createShard_ages {block : BlockNumber} {network : NetworkId} {threshold : Nat}
    {as : List AccountId} (hcounter : sh'.shardIdCounter = sh.shardIdCounter + 1)
    (h : Shards.createShard cfg block network threshold sh as = some sh') : Ages sh sh' := by
  refine ⟨by rw [hcounter]; exact Nat.le_succ _, fun b x hx hb => ?_⟩
  rw [(createShard_fields h).2.2, StorageMap.get_insert_of_ne] at hb
  · exact hb
  · exact fun heq => Nat.ne_of_lt hx (congrArg Prod.snd heq)

/-- What calls other than the elections do leaves the timers or drains
them. -/
theorem Act.ages (h : Act cfg i s s') (hn : Numbered s.shards)
    (hlt : s'.shards.createdShards.length < 2 ^ 64) : Ages s.shards s'.shards := by
  cases h with
  | closes _ hcloses => exact .of_eq hcloses.counter hcloses.timeout
  | expires _ hcloses _ =>
      refine ⟨Nat.le_of_eq hcloses.counter.symm, fun b x _ hb => ?_⟩
      rw [hcloses.timeout, drainBucket_timeout] at hb
      split at hb
      · exact absurd rfl hb
      · exact hb
  | @returns a _ _ _ hshards =>
      obtain ⟨online, state, hrest⟩ := shardsMemberOnline_rest s.shards a
      rw [hshards, hrest]
      exact .of_eq rfl rfl
  | commits _ heq => exact heq ▸ .of_eq rfl rfl
  | joins _ _ heq => exact heq ▸ .of_eq rfl rfl
  | readies _ _ heq => exact heq ▸ .of_eq rfl rfl
  | opens _ _ _ _ heq => exact heq ▸ .of_eq rfl rfl
  | elects _ hcreates =>
      exact hcreates.rule (P := Ages s.shards) hn hlt
        (fun _ hcounter hcreate hages => hages.trans (createShard_ages hcounter hcreate))
        (.of_eq rfl rfl)

theorem Timed.mono (h : Timed sh lo hi) (hlo : lo' ≤ lo) (hhi : hi ≤ hi') : Timed sh lo' hi' where
  counter := h.counter
  known b x hb := ⟨(h.known b x hb).1, Nat.le_trans (h.known b x hb).2 hhi⟩
  pending x hx hp := by
    obtain ⟨b, hb, hle⟩ := h.pending x hx hp
    exact ⟨b, hb, Nat.le_trans hlo hle⟩

/-- A shard that has no key had none before. -/
theorem Forward.isPending {old new : ShardStatus} (h : Forward old new)
    (hnew : new.isPending = true) : old.isPending = true := by
  cases h with
  | stays => exact hnew
  | commits => rfl
  | opens => cases hnew
  | closes => cases hnew

theorem Timed.of_forward (h : Timed sh lo hi) (hcounter : sh'.shardIdCounter = sh.shardIdCounter)
    (htimeout : sh'.dkgTimeout = sh.dkgTimeout)
    (htimeoutCounter : sh'.dkgTimeoutCounter = sh.dkgTimeoutCounter)
    (hforward : ∀ x < sh.shardIdCounter, ∃ old new, sh.shardState.get x = some old ∧
      sh'.shardState.get x = some new ∧ Forward old new) : Timed sh' lo hi where
  counter b := by
    rw [htimeoutCounter, htimeout]
    exact h.counter b
  known b x hb := by
    rw [hcounter]
    exact h.known b x (htimeout ▸ hb)
  pending x hx hp := by
    rw [hcounter] at hx
    rw [htimeout]
    obtain ⟨old, new, hold, hnew, hmove⟩ := hforward x hx
    rw [hnew] at hp
    refine h.pending x hx ?_
    rw [hold]
    exact hmove.isPending hp

/-- The bucket of `n` is drained, and the shards in it that have no key
are closed. -/
theorem Timed.expire {n : BlockNumber} (h : Timed s.shards n hi)
    (hcloses : Closes (drainBucket cfg s n) s')
    (hexpired : ∀ x, s.shards.dkgTimeout.get (n, x) ≠ none →
      (s.shards.shardState.get x).any ShardStatus.isPending = true →
      s'.shards.shardState.get x = some .offline) : Timed s'.shards (n + 1) hi where
  counter b := by
    rw [hcloses.timeoutCounter, hcloses.timeout]
    by_cases hb : b = n
    · have hempty : (drainBucket cfg s n).shards.dkgTimeout.prefixKeys b = ∅ := by
        refine Finset.eq_empty_of_forall_notMem fun x hx => ?_
        rw [StorageMap.mem_prefixKeys, drainBucket_timeout, if_pos hb] at hx
        exact hx rfl
      rw [hempty, hb]
      simp only [drainBucket, StorageMap.getD, StorageMap.get_remove, if_pos]
      rfl
    · have hsame : (drainBucket cfg s n).shards.dkgTimeout.prefixKeys b
          = s.shards.dkgTimeout.prefixKeys b := by
        ext x
        rw [StorageMap.mem_prefixKeys, StorageMap.mem_prefixKeys, drainBucket_timeout, if_neg hb]
      rw [hsame, ← h.counter b]
      simp only [drainBucket, StorageMap.getD, StorageMap.get_remove, if_neg hb]
  known b x hb := by
    rw [hcloses.timeout, drainBucket_timeout] at hb
    rw [hcloses.counter]
    split at hb
    · exact absurd rfl hb
    · exact h.known b x hb
  pending x hx hp := by
    have hstate : s'.shards.shardState.get x = s.shards.shardState.get x := by
      rcases hcloses.status x with heq | hoff
      · exact heq
      · rw [hoff] at hp
        cases hp
    rw [hcloses.counter] at hx
    rw [hstate] at hp
    obtain ⟨b, hb, hle⟩ := h.pending x hx hp
    have hne : b ≠ n := by
      rintro rfl
      have hoff := hexpired x hb hp
      rw [← hstate, hoff] at hp
      cases hp
    refine ⟨b, ?_, Nat.lt_of_le_of_ne hle hne.symm⟩
    rw [hcloses.timeout, drainBucket_timeout, if_neg hne]
    exact hb

/-- The shards of a block get their timers. -/
theorem createShard_timed {block : BlockNumber} {network : NetworkId} {threshold : Nat}
    {as : List AccountId} (hfar : block + cfg.dkgTimeout < 2 ^ 32)
    (hlo : lo ≤ block + cfg.dkgTimeout)
    (hcounter : sh'.shardIdCounter = sh.shardIdCounter + 1)
    (h : Shards.createShard cfg block network threshold sh as = some sh')
    (ht : Timed sh lo (block + cfg.dkgTimeout)) : Timed sh' lo (block + cfg.dkgTimeout) := by
  obtain ⟨hroom, hstate, htimeout⟩ := createShard_fields h
  obtain ⟨sh₁, hcreate, htimers⟩ := @createShard_room cfg block network threshold sh as hroom
  obtain rfl : sh' = sh₁ := Option.some.inj (h.symm.trans hcreate)
  rw [satAdd_of_lt hfar] at htimers htimeout
  have hnew : sh.shardIdCounter ∉ sh.dkgTimeout.prefixKeys (block + cfg.dkgTimeout) := by
    rw [StorageMap.mem_prefixKeys]
    exact fun hx => Nat.lt_irrefl _ (ht.known _ _ hx).1
  refine ⟨fun b => ?_, fun b x hb => ?_, fun x hx hp => ?_⟩
  · rw [htimers, htimeout, StorageMap.getD_insert, StorageMap.prefixKeys_insert,
      Function.update_apply]
    split
    · rw [Finset.card_insert_of_notMem hnew, ht.counter]
    · exact ht.counter b
  · rw [htimeout, StorageMap.get_insert] at hb
    rw [hcounter]
    split at hb
    · next heq =>
        obtain ⟨rfl, rfl⟩ := Prod.mk.injEq .. |>.mp heq
        exact ⟨Nat.lt_succ_self _, Nat.le_refl _⟩
    · exact ⟨Nat.lt_succ_of_lt (ht.known b x hb).1, (ht.known b x hb).2⟩
  · rw [htimeout]
    by_cases hxe : x = sh.shardIdCounter
    · refine ⟨block + cfg.dkgTimeout, ?_, hlo⟩
      rw [hxe, StorageMap.get_insert_self]
      exact Option.some_ne_none ()
    · rw [hcounter] at hx
      rw [hstate, StorageMap.get_insert_of_ne _ _ hxe] at hp
      obtain ⟨b, hb, hle⟩ := ht.pending x (Nat.lt_of_le_of_ne (Nat.le_of_lt_succ hx) hxe) hp
      refine ⟨b, ?_, hle⟩
      rw [StorageMap.get_insert_of_ne]
      · exact hb
      · exact fun heq => hxe (congrArg Prod.snd heq)

theorem Act.clock (h : Act cfg i s s') :
    s'.blockNumber = s.blockNumber ∧ s'.dueHooks = s.dueHooks := by
  cases h with
  | closes _ hcloses => exact ⟨hcloses.blockNumber, hcloses.dueHooks⟩
  | expires _ hcloses _ => exact ⟨hcloses.blockNumber, hcloses.dueHooks⟩
  | returns _ _ _ _ _ hblock hhooks => exact ⟨hblock, hhooks⟩
  | commits _ heq => exact heq ▸ ⟨rfl, rfl⟩
  | joins _ _ heq => exact heq ▸ ⟨rfl, rfl⟩
  | readies _ _ heq => exact heq ▸ ⟨rfl, rfl⟩
  | opens _ _ _ _ heq => exact heq ▸ ⟨rfl, rfl⟩
  | elects _ _ _ hblock hhooks => exact ⟨hblock, hhooks⟩

/-- Calls other than the hooks of the shards and the elections leave the
timers. -/
theorem Act.timed (h : Act cfg i s s') (hshards : i.call ≠ .onInitialize .shards)
    (helections : i.call ≠ .onInitialize .elections)
    (hforward : ∀ x < s.shards.shardIdCounter, ∃ old new, s.shards.shardState.get x = some old ∧
      s'.shards.shardState.get x = some new ∧ Forward old new)
    (ht : Timed s.shards lo hi) : Timed s'.shards lo hi := by
  obtain ⟨hcounter, htimeout, htimeoutCounter⟩ :
      s'.shards.shardIdCounter = s.shards.shardIdCounter ∧
      s'.shards.dkgTimeout = s.shards.dkgTimeout ∧
      s'.shards.dkgTimeoutCounter = s.shards.dkgTimeoutCounter := by
    cases h with
    | closes _ hcloses => exact ⟨hcloses.counter, hcloses.timeout, hcloses.timeoutCounter⟩
    | expires hcall => exact absurd hcall hshards
    | @returns a _ _ _ heq =>
        obtain ⟨online, state, hrest⟩ := shardsMemberOnline_rest s.shards a
        rw [heq, hrest]
        exact ⟨rfl, rfl, rfl⟩
    | commits _ heq => exact heq ▸ ⟨rfl, rfl, rfl⟩
    | joins _ _ heq => exact heq ▸ ⟨rfl, rfl, rfl⟩
    | readies _ _ heq => exact heq ▸ ⟨rfl, rfl, rfl⟩
    | opens _ _ _ _ heq => exact heq ▸ ⟨rfl, rfl, rfl⟩
    | elects hcall => exact absurd hcall helections
  exact ht.of_forward hcounter htimeout htimeoutCounter hforward

end Timed

/-! ## Blocks -/

/-- The hooks of a block run in the order of the runtime, and before
anything else. -/
def inOrder (s : State) (i : Input) : Bool :=
  match i.call with
  | .onInitialize hook => s.dueHooks.head? == some hook
  | _ => s.dueHooks.isEmpty

/-- Where the timers are in a block. -/
structure Dated (cfg : Config) (s : State) : Prop where
  hooks : s.dueHooks <:+ [.members, .shards, .elections, .tasks]
  timed : Timed s.shards
    (if Hook.shards ∈ s.dueHooks then s.blockNumber else s.blockNumber + 1)
    (if Hook.elections ∈ s.dueHooks then s.blockNumber + cfg.dkgTimeout - 1
      else s.blockNumber + cfg.dkgTimeout)

section Dated

variable {cfg : Config} {i : Input} {s s' : State}

theorem dated_genesis (cfg : Config) : Dated cfg State.genesis where
  hooks := List.nil_suffix
  timed := ⟨fun _ => rfl, fun _ _ hb => absurd rfl hb, fun _ hx => absurd hx (Nat.not_lt_zero _)⟩

theorem dueHooks_of_head {hooks : List Hook} {hook : Hook}
    (h : hooks <:+ [.members, .shards, .elections, .tasks]) (hhead : hooks.head? = some hook) :
    hooks = [Hook.members, .shards, .elections, .tasks].dropWhile (· ≠ hook) := by
  have htails := (List.mem_tails _ _).mpr h
  simp only [List.tails, List.mem_cons, List.not_mem_nil, or_false] at htails
  rcases htails with rfl | rfl | rfl | rfl | rfl
  · cases hhead
    decide
  · cases hhead
    decide
  · cases hhead
    decide
  · cases hhead
    decide
  · cases hhead

/-- A block number only goes up. -/
theorem exec_blockNumber (h : Sound cfg s) (hexec : exec cfg s i = some s') :
    s.blockNumber ≤ s'.blockNumber := by
  rw [(exec_act h hexec).clock.1]
  cases hcall : i.call with
  | newBlock => exact Nat.le_succ _
  | _ => exact Nat.le_refl _

theorem exec_hook {hook : Hook} (hcall : i.call = .onInitialize hook)
    (hexec : exec cfg s i = some s') :
    runHook { s with dueHooks := s.dueHooks.erase hook } cfg i.networks hook = some s' := by
  simp only [exec, hcall] at hexec
  split at hexec
  · exact hexec
  · cases hexec

/-- The hook of the shards drains the bucket of its block. -/
theorem exec_shards_timed {hi : BlockNumber} (hexec : exec cfg s i = some s')
    (hcall : i.call = .onInitialize .shards) (ht : Timed s.shards s.blockNumber hi) :
    Timed s'.shards (s.blockNumber + 1) hi := by
  obtain ⟨hcloses, hexpired⟩ := timeoutDkgs_closes (exec_hook hcall hexec)
  exact Timed.expire (s := { s with dueHooks := s.dueHooks.erase .shards }) ht hcloses hexpired

/-- The hook of the elections fills the bucket `DkgTimeout` blocks later. -/
theorem exec_elections_timed {lo : BlockNumber} (h : Sound cfg s) (hexec : exec cfg s i = some s')
    (hcall : i.call = .onInitialize .elections)
    (hfar : s.blockNumber + cfg.dkgTimeout < 2 ^ 32) (hlo : lo ≤ s.blockNumber + cfg.dkgTimeout)
    (ht : Timed s.shards lo (s.blockNumber + cfg.dkgTimeout)) :
    Timed s'.shards lo (s.blockNumber + cfg.dkgTimeout) := by
  have hcreates : Creates cfg s.blockNumber s.shards s'.shards :=
    electionsOnInitialize_shards (s := { s with dueHooks := s.dueHooks.erase .elections })
      (P := Creates cfg s.blockNumber s.shards)
      (fun hcreate hsh => hsh.tail ⟨_, _, _, hcreate⟩) (exec_hook hcall hexec) .refl
  exact hcreates.rule h.numbered (exec_outcome h hexec).2.created_lt
    (fun _ hcounter hcreate => createShard_timed hfar hlo hcounter hcreate) ht

theorem exec_timed {lo hi : BlockNumber} (h : Sound cfg s) (hf : Filed s.shards)
    (hc : Cleared s.shards) (hexec : exec cfg s i = some s')
    (hshards : i.call ≠ .onInitialize .shards) (helections : i.call ≠ .onInitialize .elections)
    (ht : Timed s.shards lo hi) : Timed s'.shards lo hi := by
  have hact := exec_act h hexec
  have hlt := (exec_outcome h hexec).2.created_lt
  rw [← opening_shards s i.call] at hf hc ht
  have hn : Numbered (opening s i.call).shards := opening_shards s i.call ▸ h.numbered
  have hr : Ready (opening s i.call).shards := opening_shards s i.call ▸ h.ready
  exact hact.timed hshards helections (fun x hx => hact.forward hn hr hlt hf hc hx) ht

theorem exec_dated (hT : 1 ≤ cfg.dkgTimeout) (h : Sound cfg s) (hf : Filed s.shards)
    (hc : Cleared s.shards) (horder : inOrder s i = true) (hexec : exec cfg s i = some s')
    (hfar : s'.blockNumber + cfg.dkgTimeout < 2 ^ 32) (hd : Dated cfg s) : Dated cfg s' := by
  obtain ⟨hblock, hhooks⟩ := (exec_act h hexec).clock
  have htimed := hd.timed
  by_cases hhook : ∃ hook, i.call = .onInitialize hook
  · obtain ⟨hook, hcall⟩ := hhook
    rw [inOrder, hcall] at horder
    have hdue := dueHooks_of_head hd.hooks (beq_iff_eq.mp horder)
    have hblock : s'.blockNumber = s.blockNumber := by
      rw [hblock, hcall]
      rfl
    have hhooks : s'.dueHooks = s.dueHooks.erase hook := by
      rw [hhooks, hcall]
      rfl
    rw [hdue] at hhooks htimed
    refine ⟨?_, ?_⟩
    · rw [hhooks]
      cases hook <;> decide
    · rw [hhooks, hblock]
      cases hook with
      | members => exact exec_timed h hf hc hexec (by simp [hcall]) (by simp [hcall]) htimed
      | shards => exact exec_shards_timed hexec hcall htimed
      | elections =>
          exact exec_elections_timed h hexec hcall (hblock ▸ hfar) (Nat.add_le_add_left hT _)
            (htimed.mono (Nat.le_refl _) (Nat.sub_le _ _))
      | tasks => exact exec_timed h hf hc hexec (by simp [hcall]) (by simp [hcall]) htimed
  · have hdue : s.dueHooks = [] := by
      rw [inOrder] at horder
      split at horder
      · next hook hcall => exact absurd ⟨hook, hcall⟩ hhook
      · exact List.isEmpty_iff.mp horder
    rw [hdue] at htimed
    have htimed' := exec_timed h hf hc hexec (fun hno => hhook ⟨_, hno⟩) (fun hno => hhook ⟨_, hno⟩)
      htimed
    by_cases hnew : i.call = .newBlock
    · have hblock : s'.blockNumber = s.blockNumber + 1 := by
        rw [hblock, hnew]
        rfl
      have hhooks : s'.dueHooks = [.members, .shards, .elections, .tasks] := by
        rw [hhooks, hnew]
        rfl
      refine ⟨by rw [hhooks], ?_⟩
      rw [hhooks, hblock]
      refine htimed'.mono (Nat.le_refl _) ?_
      change s.blockNumber + cfg.dkgTimeout ≤ s.blockNumber + 1 + cfg.dkgTimeout - 1
      rw [Nat.add_right_comm, Nat.add_sub_cancel]
    · have hsame : opening s i.call = s := by
        cases hcall : i.call with
        | newBlock => exact absurd hcall hnew
        | onInitialize hook => exact absurd ⟨hook, hcall⟩ hhook
        | _ => rfl
      rw [hsame] at hblock hhooks
      refine ⟨by rw [hhooks, hdue]; exact List.nil_suffix, ?_⟩
      rw [hhooks, hdue, hblock]
      exact htimed'

end Dated

/-- A run with one network per account meets `SameNetwork`. -/
theorem run_sameNetwork {cfg : Config} {net : AccountId → NetworkId} {ok : State → Input → Prop}
    {is : List Input} {s : State} (hone : ∀ s i, ok s i → OneNetwork cfg net i)
    (h : ChainRun cfg ok is s) : ChainRun cfg (SameNetwork cfg) is s := by
  refine h.imp fun {is s i} hrun hok => ?_
  intro origin network publicKey peerId hcall hadmin
  obtain rfl := hone s i hok _ _ _ _ hcall
  have hseated := (run_seated (P := fun _ => True) hone trivial (fun _ _ _ _ _ => trivial)
    (fun _ _ _ _ => trivial) (fun _ => trivial) hrun).1
  refine ⟨fun n hn => hseated.waiting_home (Multiset.mem_coe.mpr hn), fun shard n hseat hn => ?_⟩
  exact Option.some.inj (hn.symm.trans (hseated.seat_home hseat))

section Deadline

variable {cfg : Config} {net : AccountId → NetworkId} {is : List Input} {s : State}

/-- Runs of consecutive blocks with one network per account. -/
def Orderly (cfg : Config) (net : AccountId → NetworkId) (s : State) (i : Input) : Prop :=
  OneNetwork cfg net i ∧ inOrder s i = true

theorem run_dated (hT : 1 ≤ cfg.dkgTimeout) (h : ChainRun cfg (Orderly cfg net) is s)
    (hfar : s.blockNumber + cfg.dkgTimeout < 2 ^ 32) : Dated cfg s := by
  revert hfar
  refine h.invariant (P := fun _ s => s.blockNumber + cfg.dkgTimeout < 2 ^ 32 → Dated cfg s)
    (fun _ => dated_genesis cfg) ?_
  intro is s i s' hrun hd hok hexec hfar
  have hsound := run_sound hrun
  have hcleared := run_cleared (run_notLate (run_sameNetwork (fun _ _ hok => hok.1) hrun))
  refine exec_dated hT hsound (run_filed hrun) hcleared hok.2 hexec hfar (hd ?_)
  exact Nat.lt_of_le_of_lt (Nat.add_le_add_right (exec_blockNumber hsound hexec) _) hfar

theorem run_ages (h : Sound cfg s) {later : List Input} {s' : State}
    (hlater : Run (exec cfg) (Orderly cfg net) s later s') : Ages s.shards s'.shards := by
  suffices hall : Sound cfg s' ∧ Ages s.shards s'.shards from hall.2
  refine hlater.invariant (P := fun _ s' => Sound cfg s' ∧ Ages s.shards s'.shards)
    ⟨h, .of_eq rfl rfl⟩ ?_
  rintro is s₁ i s₂ - ⟨hsound, hages⟩ - hexec
  have hsound₂ := (exec_outcome hsound hexec).2
  refine ⟨hsound₂, hages.trans ?_⟩
  have hstep := (exec_act hsound hexec).ages (opening_shards s₁ i.call ▸ hsound.numbered)
    hsound₂.created_lt
  rwa [opening_shards] at hstep

/-- When the elections are due, the bucket they fill is empty. -/
theorem Dated.bucket_empty (hT : 1 ≤ cfg.dkgTimeout) (h : Dated cfg s)
    (hdue : Hook.elections ∈ s.dueHooks) :
    s.shards.dkgTimeoutCounter.getD (s.blockNumber + cfg.dkgTimeout) 0 = 0 := by
  rw [h.timed.counter, Finset.card_eq_zero]
  refine Finset.eq_empty_of_forall_notMem fun x hx => ?_
  have hle := (h.timed.known _ x (StorageMap.mem_prefixKeys.mp hx)).2
  rw [if_pos hdue] at hle
  have hpos : 0 < s.blockNumber + cfg.dkgTimeout := Nat.lt_of_lt_of_le hT (Nat.le_add_left _ _)
  exact Nat.not_lt_of_le hle (Nat.sub_lt hpos Nat.one_pos)

/-- **Key generation has a hard deadline**: the counters count the timers,
no shard is turned away by a full bucket, and `DkgTimeout` blocks after
its creation a shard has a key or is offline. -/
theorem keygen_deadline (hT : 1 ≤ cfg.dkgTimeout) (h : ChainRun cfg (Orderly cfg net) is s)
    (hfar : s.blockNumber + cfg.dkgTimeout < 2 ^ 32) :
    (∀ b, s.shards.dkgTimeoutCounter.getD b 0 = (s.shards.dkgTimeout.prefixKeys b).card) ∧
    (∀ networks, s.dueHooks.head? = some .elections →
      none ∉ Elections.createShardResults (opening s (.onInitialize .elections)) cfg networks ∧
      ∀ s', exec cfg s ⟨networks, .onInitialize .elections⟩ = some s' →
        s'.shards = lastStore s.shards
          (Elections.createShardResults (opening s (.onInitialize .elections)) cfg networks)) ∧
    ∀ (later : List Input) (s' : State), Run (exec cfg) (Orderly cfg net) s later s' →
      s'.blockNumber + cfg.dkgTimeout < 2 ^ 32 → s'.dueHooks = [] →
      s.blockNumber + cfg.dkgTimeout ≤ s'.blockNumber → ∀ x < s.shards.shardIdCounter,
        s'.shards.shardState.get x ≠ some .created ∧
          s'.shards.shardState.get x ≠ some .committed := by
  have hdated := run_dated hT h hfar
  refine ⟨hdated.timed.counter, fun networks hhead => ⟨?_, fun s' hexec => ?_⟩, ?_⟩
  · refine electResults_room ?_
    change s.shards.dkgTimeoutCounter.getD (satAdd 32 s.blockNumber cfg.dkgTimeout) 0 = 0
    rw [satAdd_of_lt hfar]
    exact hdated.bucket_empty hT (List.mem_of_mem_head? hhead)
  · have hhook := @exec_hook cfg _ s s' .elections rfl hexec
    exact onInitialize_lastStore hhook
  · intro later s' hlater hfar' hdue hlate x hx
    have hages := run_ages (run_sound h) hlater
    have hdated' := run_dated hT (h.append hlater) hfar'
    have hdone : ¬(s'.shards.shardState.get x).any ShardStatus.isPending = true := by
      intro hpending
      obtain ⟨b, hb, hlo⟩ := hdated'.timed.pending x (Nat.lt_of_lt_of_le hx hages.counter) hpending
      rw [hdue, if_neg List.not_mem_nil] at hlo
      have hhi := (hdated.timed.known b x (hages.timeout b x hx hb)).2
      have hhi : b ≤ s.blockNumber + cfg.dkgTimeout := by
        split at hhi
        · exact Nat.le_trans hhi (Nat.sub_le _ _)
        · exact hhi
      exact Nat.not_lt_of_le (Nat.le_trans hhi hlate) hlo
    exact ⟨fun hstate => hdone (by rw [hstate]; rfl), fun hstate => hdone (by rw [hstate]; rfl)⟩

/-- Keys are to be there in the next block. -/
def hastyConfig : Config := { exampleConfig with dkgTimeout := 1 }

/-- Two blocks: the member is elected in the second. -/
def hastyInputs : List Input :=
  (exampleBlock [exampleRegister 0, exampleHeartbeat] ++ exampleBlock []).map exampleInput

def hastyState : State := Run.endState (exec hastyConfig) State.genesis hastyInputs

/-- The block after that. -/
def hastyNext : State :=
  Run.endState (exec hastyConfig) hastyState ((exampleBlock []).map exampleInput)

/-- Nobody commits: the shard is closed. -/
theorem keygen_deadline_hasty :
    hastyState.shards.shardState.get 0 = some .created ∧
      hastyNext.shards.shardState.get 0 ≠ some .created := by
  have hcheck : ∀ (s : State) (i : Input),
      (inOrder s i && (i.call.registersFor.isNone || i.call.registersFor == some 0)) = true →
      Orderly hastyConfig (fun _ => 0) s i := by
    intro s i hi
    rw [Bool.and_eq_true, Bool.or_eq_true, Option.isNone_iff_eq_none, beq_iff_eq] at hi
    exact ⟨oneNetwork_of_registersFor hi.2, hi.1⟩
  have hrun : ChainRun hastyConfig (Orderly hastyConfig fun _ => 0) hastyInputs hastyState :=
    Run.of_guarded hcheck (by decide +kernel)
  have hlater : Run (exec hastyConfig) (Orderly hastyConfig fun _ => 0) hastyState
      ((exampleBlock []).map exampleInput) hastyNext := Run.of_guarded hcheck (by decide +kernel)
  refine ⟨by decide +kernel, ?_⟩
  exact ((keygen_deadline (by decide) hrun (by decide +kernel)).2.2 _ _ hlater
    (by decide +kernel) (by decide +kernel) (by decide +kernel) 0 (by decide +kernel)).1

end Deadline

end Chain

end Timechain
