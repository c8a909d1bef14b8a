import Timechain.ChainActs

/-!
# The life of a shard

A shard is created, gets a key when all its members have committed to
one, goes online when all of them are ready, and ends offline with
nothing left of it. Only `member_online` breaks this: it puts a shard
without a key offline and leaves its members and its network where they
are.
-/

namespace Timechain

namespace Chain

open Roster (Seated Intact)

/-! ## What storage says about a shard -/

/-- Holds in every run. -/
structure Filed (sh : ShardsStore) : Prop where
  empty : ∀ x, sh.shardNetwork.get x = none → ∀ a, sh.shardMembers.get (x, a) = none
  seated : ∀ a x, sh.memberShard.get a = some x → sh.shardMembers.get (x, a) ≠ none
  known : ∀ x, x < sh.shardIdCounter → sh.shardState.get x ≠ none
  keyed : ∀ x, sh.shardCommitment.get x ≠ none → x < sh.shardIdCounter ∧
    sh.shardState.get x ≠ some .created ∧ ∀ a, sh.shardMembers.get (x, a) ≠ some .added
  key : ∀ x status, sh.shardState.get x = some status → status = .committed ∨ status = .online →
    sh.shardCommitment.get x ≠ none

/-- An offline shard is off its network. -/
def Cleared (sh : ShardsStore) : Prop :=
  ∀ x, sh.shardState.get x = some .offline → sh.shardNetwork.get x = none

section Filed

variable {cfg : Config} {i : Input} {s s' : State} {sh sh' : ShardsStore} {block : BlockNumber}

/-- What every new shard keeps while ids last. -/
theorem Creates.rule {P : ShardsStore → Prop} (h : Creates cfg block sh sh') (hn : Numbered sh)
    (hlt : sh'.createdShards.length < 2 ^ 64)
    (hP : ∀ {network threshold sh₁ sh₂ as}, Numbered sh₁ →
      sh₂.shardIdCounter = sh₁.shardIdCounter + 1 →
      Shards.createShard cfg block network threshold sh₁ as = some sh₂ → P sh₁ → P sh₂)
    (hsh : P sh) : P sh' := by
  suffices hall : Numbered sh' ∧ P sh' from hall.2
  induction h with
  | refl => exact ⟨hn, hsh⟩
  | tail _ hstep ih =>
      obtain ⟨network, threshold, as, hcreate⟩ := hstep
      have hcreated := createShard_created hcreate
      rw [hcreated, List.length_append, List.length_singleton] at hlt
      obtain ⟨hn₁, hP₁⟩ := ih (Nat.lt_of_succ_lt hlt)
      obtain ⟨hn₂, -, -⟩ := createShard_numbered hcreate hn₁ hlt
      refine ⟨hn₂, hP hn₁ ?_ hcreate hP₁⟩
      rw [hn₂.counter, hn₁.counter, hcreated, List.length_append, List.length_singleton]

theorem filed_genesis : Filed State.genesis.shards where
  empty _ _ _ := rfl
  seated _ _ hx := by cases hx
  known _ hx := absurd hx (Nat.not_lt_zero _)
  keyed _ hx := absurd rfl hx
  key _ _ hx := by cases hx

/-- A shard with members was created. -/
theorem Filed.created (h : Filed sh) (hn : Numbered sh) {x : ShardId} {a : AccountId}
    (hx : sh.shardMembers.get (x, a) ≠ none) : x < sh.shardIdCounter := by
  refine Nat.lt_of_not_le fun hle => hx ?_
  exact h.empty x (hn.fresh x hle) a

theorem Sheds.filed (h : Sheds s s') (hf : Filed s.shards) : Filed s'.shards where
  empty x hx a := by
    rcases h.emptied x hx with hnone | hempty
    · rcases h.member x a with heq | hgone
      · exact heq.trans (hf.empty x hnone a)
      · exact hgone
    · exact hempty a
  seated a x hx := by
    obtain ⟨hseat, heq⟩ := h.seat a x hx
    rw [heq]
    exact hf.seated a x hseat
  known x hx := by
    rcases h.status x with heq | hoff
    · rw [heq]
      exact hf.known x (h.counter ▸ hx)
    · rw [hoff]
      exact Option.some_ne_none _
  keyed x hx := by
    obtain ⟨hlt, hcreated, hadded⟩ := hf.keyed x (h.commitment ▸ hx)
    refine ⟨h.counter.symm ▸ hlt, ?_, fun a => ?_⟩
    · rcases h.status x with heq | hoff
      · rw [heq]
        exact hcreated
      · simp [hoff]
    · rcases h.member x a with heq | hnone
      · rw [heq]
        exact hadded a
      · simp [hnone]
  key x status hx hstatus := by
    rw [h.commitment]
    rcases h.status x with heq | hoff
    · exact hf.key x status (heq.symm.trans hx) hstatus
    · rw [hoff] at hx
      cases hx
      rcases hstatus with hno | hno <;> cases hno

/-- A member comes back: its shard is offline if it had no key yet. -/
theorem shardsMemberOnline_state (sh : ShardsStore) (a : AccountId) (x : ShardId) :
    (Shards.memberOnline sh a).shardState.get x = if sh.memberShard.get a = some x ∧
      (sh.shardState.get x).any ShardStatus.isPending = true then some .offline
      else sh.shardState.get x := by
  simp only [Shards.memberOnline]
  split
  · next hnone => rw [if_neg fun hno => by rw [hno.1] at hnone; cases hnone]
  · next y hseat =>
      rw [hseat]
      split
      · next hnone =>
          rw [if_neg]
          rintro ⟨hx, hp⟩
          cases hx
          rw [hnone] at hp
          cases hp
      · next oldStatus hold =>
          dsimp only
          by_cases hp : oldStatus.isPending = true
          · rw [if_pos hp, StorageMap.get_insert]
            by_cases hx : x = y
            · rw [if_pos hx, if_pos ⟨congrArg some hx.symm, by rw [hx, hold]; exact hp⟩]
            · rw [if_neg hx, if_neg fun hno => hx (Option.some.inj hno.1).symm]
          · rw [if_neg hp, if_neg]
            rintro ⟨hx, hpend⟩
            cases hx
            rw [hold] at hpend
            exact hp hpend

theorem shardsMemberOnline_filed (a : AccountId) (hf : Filed sh) :
    Filed (Shards.memberOnline sh a) := by
  have hstate := shardsMemberOnline_state sh a
  obtain ⟨online, state, hrest⟩ := shardsMemberOnline_rest sh a
  rw [hrest] at hstate ⊢
  dsimp only at hstate
  refine ⟨hf.empty, hf.seated, fun x hx => ?_, fun x hx => ?_, fun x status hx hstatus => ?_⟩
  · dsimp only
    rw [hstate]
    split
    · exact Option.some_ne_none _
    · exact hf.known x hx
  · obtain ⟨hlt, hcreated, hadded⟩ := hf.keyed x hx
    refine ⟨hlt, ?_, hadded⟩
    dsimp only
    rw [hstate]
    split
    · simp
    · exact hcreated
  · dsimp only at hx
    rw [hstate] at hx
    split at hx
    · cases hx
      rcases hstatus with hno | hno <;> cases hno
    · exact hf.key x status hx hstatus

/-- A member's status moves on. -/
theorem writeStatus_filed {x : ShardId} {a : AccountId} (status : MemberStatus)
    (hmem : s.shards.shardMembers.get (x, a) ≠ none) (hadded : status ≠ .added)
    (hf : Filed s.shards) : Filed (writeStatus s x a status).shards := by
  have hget : ∀ y b, (writeStatus s x a status).shards.shardMembers.get (y, b)
      = if (y, b) = (x, a) then some status else s.shards.shardMembers.get (y, b) :=
    fun y b => StorageMap.get_insert ..
  refine ⟨fun y hy b => ?_, fun b y hy => ?_, hf.known, fun y hy => ?_, hf.key⟩
  · rw [hget, if_neg]
    · exact hf.empty y hy b
    · intro heq
      obtain ⟨rfl, rfl⟩ := Prod.mk.injEq .. |>.mp heq
      exact hmem (hf.empty y hy b)
  · rw [hget]
    split
    · exact Option.some_ne_none _
    · exact hf.seated b y hy
  · obtain ⟨hlt, hcreated, hno⟩ := hf.keyed y hy
    refine ⟨hlt, hcreated, fun b => ?_⟩
    rw [hget]
    split
    · exact fun heq => hadded (Option.some.inj heq)
    · exact hno b

theorem createShard_filed {network : NetworkId} {threshold : Nat} {as : List AccountId}
    (hcounter : sh'.shardIdCounter = sh.shardIdCounter + 1)
    (h : Shards.createShard cfg block network threshold sh as = some sh') (hf : Filed sh) :
    Filed sh' := by
  have hnone : sh.shardCommitment.get sh.shardIdCounter = none :=
    not_not.mp fun hno => Nat.lt_irrefl _ (hf.keyed _ hno).1
  simp only [Shards.createShard] at h
  split at h
  · cases h
    refine ⟨fun x hx a => ?_, fun a x hx => ?_, fun x hx => ?_, fun x hx => ?_,
      fun x status hx hstatus => ?_⟩
    · dsimp only at hx ⊢
      rw [StorageMap.get_insert] at hx
      split at hx
      · cases hx
      · next hne =>
          rw [StorageMap.get_insertAll, if_neg]
          · exact hf.empty x hx a
          · intro hmem
            obtain ⟨b, -, heq⟩ := List.mem_map.mp hmem
            exact hne (congrArg Prod.fst heq).symm
    · dsimp only at hx ⊢
      rw [StorageMap.get_insertAll] at hx ⊢
      split
      · exact Option.some_ne_none _
      · next hout =>
          split at hx
          · next ha =>
              cases hx
              exact absurd (List.mem_map_of_mem ha) hout
          · exact hf.seated a x hx
    · rw [hcounter] at hx
      dsimp only
      rw [StorageMap.get_insert]
      split
      · exact Option.some_ne_none _
      · next hne => exact hf.known x (Nat.lt_of_le_of_ne (Nat.le_of_lt_succ hx) hne)
    · obtain ⟨hlt, hcreated, hadded⟩ := hf.keyed x hx
      have hne : x ≠ sh.shardIdCounter := Nat.ne_of_lt hlt
      refine ⟨by rw [hcounter]; exact Nat.lt_succ_of_lt hlt, ?_, fun a => ?_⟩
      · dsimp only
        rw [StorageMap.get_insert_of_ne _ _ hne]
        exact hcreated
      · dsimp only
        rw [StorageMap.get_insertAll, if_neg]
        · exact hadded a
        · intro hmem
          obtain ⟨b, -, heq⟩ := List.mem_map.mp hmem
          exact hne (congrArg Prod.fst heq).symm
    · dsimp only at hx
      rw [StorageMap.get_insert] at hx
      split at hx
      · cases hx
        rcases hstatus with hno | hno <;> cases hno
      · exact hf.key x status hx hstatus
  · cases h

/-- The last member has committed: the shard has a key. -/
theorem joins_filed (x : ShardId) (group : Commitment) (hn : Numbered sh)
    (hmem : ∃ a, sh.shardMembers.get (x, a) ≠ none)
    (hall : ∀ a, sh.shardMembers.get (x, a) ≠ some .added) (hf : Filed sh) :
    Filed { sh with
      shardCommitment := sh.shardCommitment.insert x group
      shardState := sh.shardState.insert x .committed } := by
  obtain ⟨a, hmem⟩ := hmem
  refine ⟨hf.empty, hf.seated, fun y hy => ?_, fun y hy => ?_, fun y status hy hstatus => ?_⟩
  · dsimp only
    rw [StorageMap.get_insert]
    split
    · exact Option.some_ne_none _
    · exact hf.known y hy
  · dsimp only at hy ⊢
    rw [StorageMap.get_insert] at hy ⊢
    split
    · next heq =>
        subst heq
        exact ⟨hf.created hn hmem, by simp, hall⟩
    · next hne =>
        rw [if_neg hne] at hy
        exact hf.keyed y hy
  · dsimp only at hy ⊢
    rw [StorageMap.get_insert] at hy ⊢
    split
    · exact Option.some_ne_none _
    · next hne =>
        rw [if_neg hne] at hy
        exact hf.key y status hy hstatus

/-- The last member is ready: the shard is online. -/
theorem opens_filed {x : ShardId} {events : List ShardsEvent}
    (hkey : sh.shardCommitment.get x ≠ none) (hf : Filed sh) :
    Filed { sh with shardState := sh.shardState.insert x .online, events := events } := by
  refine ⟨hf.empty, hf.seated, fun y hy => ?_, fun y hy => ?_, fun y status hy hstatus => ?_⟩
  · dsimp only
    rw [StorageMap.get_insert]
    split
    · exact Option.some_ne_none _
    · exact hf.known y hy
  · obtain ⟨hlt, hcreated, hadded⟩ := hf.keyed y hy
    refine ⟨hlt, ?_, hadded⟩
    dsimp only
    rw [StorageMap.get_insert]
    split
    · simp
    · exact hcreated
  · dsimp only at hy
    rw [StorageMap.get_insert] at hy
    split at hy
    · next heq => exact heq ▸ hkey
    · exact hf.key y status hy hstatus

theorem tssPublicKey_ne_none {x : ShardId} {key : TssPublicKey}
    (h : Shards.tssPublicKey sh x = some key) : sh.shardCommitment.get x ≠ none := by
  intro hno
  rw [Shards.tssPublicKey, hno] at h
  cases h

theorem ne_none_of_committed {x : ShardId} {a : AccountId}
    (h : (sh.shardMembers.get (x, a)).any MemberStatus.isCommitted = true) :
    sh.shardMembers.get (x, a) ≠ none := by
  intro hno
  rw [hno] at h
  cases h

theorem Act.filed (h : Act cfg i s s') (hn : Numbered s.shards)
    (hlt : s'.shards.createdShards.length < 2 ^ 64) (hf : Filed s.shards) : Filed s'.shards := by
  cases h with
  | closes _ hcloses => exact hcloses.filed hf
  | expires _ hcloses _ =>
      exact hcloses.filed ⟨hf.empty, hf.seated, hf.known, hf.keyed, hf.key⟩
  | returns _ _ _ hshards => exact hshards ▸ shardsMemberOnline_filed _ hf
  | commits hadded heq =>
      subst heq
      exact writeStatus_filed _ (hadded ▸ Option.some_ne_none _) (by simp) hf
  | @joins x a commitment group hadded hall heq =>
      subst heq
      have hmem : s.shards.shardMembers.get (x, a) ≠ none := hadded ▸ Option.some_ne_none _
      have hf' := writeStatus_filed (.committed commitment) hmem (by simp) hf
      have hn' : Numbered (writeStatus s x a (.committed commitment)).shards :=
        ⟨hn.counter, hn.fresh⟩
      have hjoined := joins_filed x group hn' ⟨a, ?_⟩ (fun b hno => ?_) hf'
      · exact ⟨hjoined.empty, hjoined.seated, hjoined.known, hjoined.keyed, hjoined.key⟩
      · rw [show (writeStatus s x a (.committed commitment)).shards.shardMembers.get (x, a)
          = some (.committed commitment) from StorageMap.get_insert_self ..]
        exact Option.some_ne_none _
      · cases hall b .added hno
  | readies hcommitted _ heq =>
      subst heq
      exact writeStatus_filed _ (ne_none_of_committed hcommitted) (by simp) hf
  | @opens x a network key events tasks hcommitted _ hkey _ heq =>
      subst heq
      have hf' := writeStatus_filed .ready (ne_none_of_committed hcommitted) (by simp) hf
      have hne : (writeStatus s x a .ready).shards.shardCommitment.get x ≠ none :=
        tssPublicKey_ne_none hkey
      exact opens_filed hne hf'
  | elects _ hcreates =>
      exact hcreates.rule hn hlt (fun _ => createShard_filed) hf

end Filed

/-! ## From creation to the end -/

/-- The moves of a shard. -/
inductive Forward : ShardStatus → ShardStatus → Prop
  | stays (status) : Forward status status
  | commits : Forward .created .committed
  | opens : Forward .committed .online
  | closes (status) : Forward status .offline

/-- What a call does to shards with ids below the counter, which are those
that were created. -/
structure Lives (s s' : State) : Prop where
  forward : ∀ x < s.shards.shardIdCounter, ∃ old new, s.shards.shardState.get x = some old ∧
    s'.shards.shardState.get x = some new ∧ Forward old new
  created : ∀ x, s.shards.shardIdCounter ≤ x → x < s'.shards.shardIdCounter →
    s'.shards.shardState.get x = some .created
  offline : ∀ x < s'.shards.shardIdCounter, s'.shards.shardState.get x = some .offline →
    (∀ a, s'.shards.shardMembers.get (x, a) = none) ∧ s'.shards.shardNetwork.get x = none ∧
      ∀ a, s'.shards.memberShard.get a ≠ some x

/-- An account comes back online that is in a shard without a key. -/
def ReturnsLate (s : State) (i : Input) : Prop :=
  ∃ a x, i.call = .sendHeartbeat (.signed a) ∧ s.members.memberOnline.get a = none ∧
    s.members.memberNetwork.get a ≠ none ∧ s.shards.memberShard.get a = some x ∧
    (s.shards.shardState.get x).any ShardStatus.isPending = true

section Lives

variable {cfg : Config} {i : Input} {s s' : State} {sh sh' : ShardsStore} {block : BlockNumber}
  {is : List Input}

theorem Filed.exists_status (hf : Filed sh) {x : ShardId} (hx : x < sh.shardIdCounter) :
    ∃ status, sh.shardState.get x = some status := Option.ne_none_iff_exists'.mp (hf.known x hx)

theorem createShard_fields {network : NetworkId} {threshold : Nat} {as : List AccountId}
    (h : Shards.createShard cfg block network threshold sh as = some sh') :
    sh.dkgTimeoutCounter.getD (satAdd 32 block cfg.dkgTimeout) 0 < cfg.maxElectionsPerBlock ∧
    sh'.shardState = sh.shardState.insert sh.shardIdCounter .created ∧
    sh'.dkgTimeout
      = sh.dkgTimeout.insert (satAdd 32 block cfg.dkgTimeout, sh.shardIdCounter) () := by
  simp only [Shards.createShard] at h
  split at h
  · next hroom =>
      cases h
      exact ⟨hroom, rfl, rfl⟩
  · cases h

/-- Old shards keep their status, new ones are created. -/
theorem Creates.states (h : Creates cfg block sh sh') (hn : Numbered sh)
    (hlt : sh'.createdShards.length < 2 ^ 64) :
    sh.shardIdCounter ≤ sh'.shardIdCounter ∧ ∀ x, sh'.shardState.get x
      = if sh.shardIdCounter ≤ x ∧ x < sh'.shardIdCounter then some .created
        else sh.shardState.get x := by
  refine h.rule (P := fun sh' => sh.shardIdCounter ≤ sh'.shardIdCounter ∧
    ∀ x, sh'.shardState.get x = if sh.shardIdCounter ≤ x ∧ x < sh'.shardIdCounter then
      some .created else sh.shardState.get x) hn hlt ?_ ⟨Nat.le_refl _, fun x => ?_⟩
  · rintro network threshold sh₁ sh₂ as - hcounter hcreate ⟨hle, hstate⟩
    refine ⟨by rw [hcounter]; exact Nat.le_succ_of_le hle, fun x => ?_⟩
    obtain ⟨-, hnew, -⟩ := createShard_fields hcreate
    rw [hnew, StorageMap.get_insert, hstate, hcounter]
    by_cases hx : x = sh₁.shardIdCounter
    · rw [if_pos hx, if_pos ⟨hx ▸ hle, by rw [hx]; exact Nat.lt_succ_self _⟩]
    · have hiff : x < sh₁.shardIdCounter + 1 ↔ x < sh₁.shardIdCounter :=
        ⟨fun hlt => Nat.lt_of_le_of_ne (Nat.le_of_lt_succ hlt) hx, Nat.lt_succ_of_lt⟩
      simp only [if_neg hx, hiff]
  · rw [if_neg]
    rintro ⟨hle, hlt⟩
    exact Nat.not_lt_of_le hle hlt

/-- A commit is made in a shard that was only created. -/
theorem created_of_added (hn : Numbered sh) (hf : Filed sh) (hc : Cleared sh) {x : ShardId}
    {a : AccountId} (hadded : sh.shardMembers.get (x, a) = some .added) :
    sh.shardState.get x = some .created := by
  have hmem : sh.shardMembers.get (x, a) ≠ none := hadded ▸ Option.some_ne_none _
  have hkey : sh.shardCommitment.get x = none :=
    not_not.mp fun hno => (hf.keyed x hno).2.2 a hadded
  obtain ⟨status, hstatus⟩ := hf.exists_status (hf.created hn hmem)
  rw [hstatus]
  cases status with
  | created => rfl
  | committed => exact absurd hkey (hf.key x _ hstatus (Or.inl rfl))
  | online => exact absurd hkey (hf.key x _ hstatus (Or.inr rfl))
  | offline => exact absurd (hf.empty x (hc x hstatus) a) hmem

/-- Members get ready in a shard that has its key and is not online. -/
theorem committed_of_committed (hr : Ready sh) (hf : Filed sh) (hc : Cleared sh)
    {x : ShardId} {a : AccountId}
    (hcommitted : (sh.shardMembers.get (x, a)).any MemberStatus.isCommitted = true)
    (hkey : sh.shardCommitment.get x ≠ none) : sh.shardState.get x = some .committed := by
  obtain ⟨hlt, hcreated, -⟩ := hf.keyed x hkey
  have hmem := ne_none_of_committed hcommitted
  obtain ⟨status, hstatus⟩ := hf.exists_status hlt
  rw [hstatus] at hcreated ⊢
  cases status with
  | created => exact absurd rfl hcreated
  | committed => rfl
  | online =>
      obtain ⟨old, hold⟩ := Option.ne_none_iff_exists'.mp hmem
      rw [hold, hr x a old hstatus hold] at hcommitted
      cases hcommitted
  | offline => exact absurd (hf.empty x (hc x hstatus) a) hmem

/-- Every call moves created shards forward. -/
theorem Act.forward (h : Act cfg i s s') (hn : Numbered s.shards) (hr : Ready s.shards)
    (hlt : s'.shards.createdShards.length < 2 ^ 64) (hf : Filed s.shards) (hc : Cleared s.shards)
    {x : ShardId} (hx : x < s.shards.shardIdCounter) :
    ∃ old new, s.shards.shardState.get x = some old ∧ s'.shards.shardState.get x = some new ∧
      Forward old new := by
  obtain ⟨old, hold⟩ := hf.exists_status hx
  have hsheds : ∀ {s₀ : State}, Sheds s₀ s' → s₀.shards.shardState = s.shards.shardState →
      ∃ old new, s.shards.shardState.get x = some old ∧ s'.shards.shardState.get x = some new ∧
        Forward old new := by
    intro s₀ hsheds heq
    rcases hsheds.status x with hsame | hoff
    · exact ⟨old, old, hold, by rw [hsame, heq, hold], .stays old⟩
    · exact ⟨old, .offline, hold, hoff, .closes old⟩
  have hinsert : ∀ {y : ShardId} {st st' : ShardStatus}, s.shards.shardState.get y = some st →
      Forward st st' → s'.shards.shardState = s.shards.shardState.insert y st' →
      ∃ old new, s.shards.shardState.get x = some old ∧ s'.shards.shardState.get x = some new ∧
        Forward old new := by
    intro y st st' hy hmove heq
    rw [heq, StorageMap.get_insert]
    split
    · next hxy => exact ⟨st, st', hxy ▸ hy, rfl, hmove⟩
    · exact ⟨old, old, hold, hold, .stays old⟩
  cases h with
  | closes _ hcloses => exact hsheds hcloses.toSheds rfl
  | expires _ hcloses _ => exact hsheds hcloses.toSheds rfl
  | @returns a _ _ _ hshards =>
      rw [hshards, shardsMemberOnline_state]
      split
      · exact ⟨old, .offline, hold, rfl, .closes old⟩
      · exact ⟨old, old, hold, hold, .stays old⟩
  | commits _ heq =>
      subst heq
      exact ⟨old, old, hold, hold, .stays old⟩
  | joins hadded _ heq =>
      subst heq
      exact hinsert (created_of_added hn hf hc hadded) .commits rfl
  | readies _ _ heq =>
      subst heq
      exact ⟨old, old, hold, hold, .stays old⟩
  | opens hcommitted _ hkey _ heq =>
      subst heq
      exact hinsert (committed_of_committed hr hf hc hcommitted (tssPublicKey_ne_none hkey)) .opens
        rfl
  | elects _ hcreates =>
      refine ⟨old, old, hold, ?_, .stays old⟩
      rw [(hcreates.states hn hlt).2, if_neg fun hno => Nat.not_lt_of_le hno.1 hx]
      exact hold

/-- Only the elections create shards. -/
theorem Act.created (h : Act cfg i s s') (hn : Numbered s.shards)
    (hlt : s'.shards.createdShards.length < 2 ^ 64) {x : ShardId}
    (hle : s.shards.shardIdCounter ≤ x) (hx : x < s'.shards.shardIdCounter) :
    s'.shards.shardState.get x = some .created := by
  have hnone : s'.shards.shardIdCounter = s.shards.shardIdCounter →
      s'.shards.shardState.get x = some .created := fun heq =>
    absurd (Nat.lt_of_lt_of_le hx (heq ▸ hle)) (Nat.lt_irrefl x)
  cases h with
  | closes _ hcloses => exact hnone hcloses.counter
  | expires _ hcloses _ => exact hnone hcloses.counter
  | @returns a _ _ _ hshards =>
      obtain ⟨online, state, hrest⟩ := shardsMemberOnline_rest s.shards a
      exact hnone (by rw [hshards, hrest])
  | commits _ heq => exact hnone (by rw [heq]; rfl)
  | joins _ _ heq => exact hnone (by rw [heq]; rfl)
  | readies _ _ heq => exact hnone (by rw [heq]; rfl)
  | opens _ _ _ _ heq => exact hnone (by rw [heq]; rfl)
  | elects _ hcreates => rw [(hcreates.states hn hlt).2, if_pos ⟨hle, hx⟩]

theorem Closes.cleared (h : Closes s s') (hc : Cleared s.shards) : Cleared s'.shards := by
  intro x hx
  rcases h.closed x hx with hoff | hnone
  · rcases h.network x with heq | hgone
    · exact heq.trans (hc x hoff)
    · exact hgone
  · exact hnone

theorem Act.cleared (h : Act cfg i s s') (hlate : ¬ReturnsLate s i) (hn : Numbered s.shards)
    (hlt : s'.shards.createdShards.length < 2 ^ 64) (hc : Cleared s.shards) :
    Cleared s'.shards := by
  have hinsert : ∀ {y : ShardId} {status : ShardStatus}, status ≠ .offline →
      s'.shards.shardState = s.shards.shardState.insert y status →
      s'.shards.shardNetwork = s.shards.shardNetwork → Cleared s'.shards := by
    intro y status hne hstate hnetwork x hx
    rw [hstate, StorageMap.get_insert] at hx
    rw [hnetwork]
    split at hx
    · exact absurd (Option.some.inj hx) hne
    · exact hc x hx
  cases h with
  | closes _ hcloses => exact hcloses.cleared hc
  | expires _ hcloses _ =>
      refine hcloses.cleared ?_
      intro x
      exact hc x
  | @returns a hcall hoff hnetwork hshards =>
      intro x hx
      obtain ⟨online, state, hrest⟩ := shardsMemberOnline_rest s.shards a
      rw [hshards, shardsMemberOnline_state] at hx
      rw [hshards, hrest]
      split at hx
      · next hpending =>
          exact absurd ⟨a, x, hcall, hoff, hnetwork, hpending.1, hpending.2⟩ hlate
      · exact hc x hx
  | commits _ heq =>
      subst heq
      exact hc
  | joins _ _ heq =>
      subst heq
      exact hinsert (by decide : ShardStatus.committed ≠ .offline) rfl rfl
  | readies _ _ heq =>
      subst heq
      exact hc
  | opens _ _ _ _ heq =>
      subst heq
      exact hinsert (by decide : ShardStatus.online ≠ .offline) rfl rfl
  | elects _ hcreates =>
      refine hcreates.rule hn hlt (fun hn₁ _ hcreate hc₁ x hx => ?_) hc
      simp only [Shards.createShard] at hcreate
      split at hcreate
      · cases hcreate
        dsimp only at hx ⊢
        rw [StorageMap.get_insert] at hx ⊢
        split at hx
        · cases hx
        · next hne =>
            rw [if_neg hne]
            exact hc₁ x hx
      · cases hcreate

@[simp] theorem opening_shards (s : State) (call : Call) : (opening s call).shards = s.shards := by
  cases call <;> rfl

@[simp] theorem opening_members (s : State) (call : Call) :
    (opening s call).members = s.members := by
  cases call <;> rfl

@[simp] theorem opening_tasks (s : State) (call : Call) : (opening s call).tasks = s.tasks := by
  cases call <;> rfl

theorem returnsLate_opening (call : Call) : ReturnsLate (opening s call) i ↔ ReturnsLate s i := by
  rw [ReturnsLate, ReturnsLate, opening_shards, opening_members]

theorem run_filed {ok : State → Input → Prop} (h : ChainRun cfg ok is s) : Filed s.shards := by
  refine h.invariant (P := fun _ s => Filed s.shards) filed_genesis ?_
  intro is s i s' hrun hf _ hexec
  have hsound := run_sound hrun
  refine (exec_act hsound hexec).filed ?_ (exec_outcome hsound hexec).2.created_lt ?_
  · rw [opening_shards]
    exact hsound.numbered
  · rw [opening_shards]
    exact hf

theorem exec_cleared (h : Sound cfg s) (hexec : exec cfg s i = some s') (hlate : ¬ReturnsLate s i)
    (hc : Cleared s.shards) : Cleared s'.shards := by
  refine (exec_act h hexec).cleared ?_ ?_ (exec_outcome h hexec).2.created_lt ?_
  · rw [returnsLate_opening]
    exact hlate
  · rw [opening_shards]
    exact h.numbered
  · rw [opening_shards]
    exact hc

theorem run_cleared (h : ChainRun cfg (fun s i => ¬ReturnsLate s i) is s) : Cleared s.shards := by
  refine h.invariant (P := fun _ s => Cleared s.shards) (fun x hx => by cases hx) ?_
  intro is s i s' hrun hc hlate hexec
  exact exec_cleared (run_sound hrun) hexec hlate hc

/-- Nothing is left of an offline shard. -/
theorem offline_of_cleared (hf : Filed sh) (hc : Cleared sh) {x : ShardId}
    (hx : sh.shardState.get x = some .offline) : (∀ a, sh.shardMembers.get (x, a) = none) ∧
      sh.shardNetwork.get x = none ∧ ∀ a, sh.memberShard.get a ≠ some x := by
  have hempty := hf.empty x (hc x hx)
  exact ⟨hempty, hc x hx, fun a ha => hf.seated a x ha (hempty a)⟩

/-- The heartbeat of an account that is not online. -/
theorem executeSendHeartbeat_returns {a : AccountId} (h : Beats s)
    (hoff : s.members.memberOnline.get a = none) (hnetwork : s.members.memberNetwork.get a ≠ none) :
    ∃ s₁, Members.executeSendHeartbeat s a = .ok s₁ ∧
      s₁.shards = Shards.memberOnline s.shards a := by
  obtain ⟨network, hnetwork⟩ := Option.ne_none_iff_exists'.mp hnetwork
  have honline : Members.isMemberOnline s.members a = false :=
    Bool.eq_false_iff.mpr fun hno => StorageMap.containsKey_iff.mp hno hoff
  have hbeat : s.members.heartbeat.containsKey a = false := by
    refine Bool.eq_false_iff.mpr fun hno => ?_
    have hon := (h.online_iff a).mpr (Or.inl (StorageMap.containsKey_iff.mp hno))
    exact StorageMap.containsKey_iff.mp hon hoff
  have hok : Members.executeSendHeartbeat s a = .ok (Members.depositEvent
      { Members.memberOnline s a network with
        members := { (Members.memberOnline s a network).members with
          heartbeat := (Members.memberOnline s a network).members.heartbeat.insert a ()
          timedOut := (Members.memberOnline s a network).members.timedOut.filter
            fun m => m ≠ a } } (.heartbeatReceived a)) := by
    simp only [Members.executeSendHeartbeat, hbeat, hnetwork, honline, ensure, okOr]
    rfl
  exact ⟨_, hok, (memberOnline_rest s a network).1⟩

/-- **A shard's life only moves forward and ends offline**: in a run in
which nobody comes back online who is in a shard without a key, a call
keeps to that if and only if it does so too. -/
theorem lives_iff (h : ChainRun cfg (fun s i => ¬ReturnsLate s i) is s)
    (hexec : exec cfg s i = some s') : Lives s s' ↔ ¬ReturnsLate s i := by
  have hsound := run_sound h
  have hf := run_filed h
  have hc := run_cleared h
  have hlt := (exec_outcome hsound hexec).2.created_lt
  constructor
  · rintro hlives ⟨a, x, hcall, hoff, hnetwork, hseat, hpending⟩
    obtain ⟨s₁, hbeat, hshards⟩ := executeSendHeartbeat_returns hsound.beats hoff hnetwork
    obtain ⟨networks, call⟩ := i
    obtain rfl : call = .sendHeartbeat (.signed a) := hcall
    obtain rfl : s' = s₁ := Option.some.inj (hexec.symm.trans (exec_sendHeartbeat networks hbeat))
    obtain ⟨online, state, hrest⟩ := shardsMemberOnline_rest s.shards a
    have hmem := hf.seated a x hseat
    have hstate := shardsMemberOnline_state s.shards a x
    rw [if_pos ⟨hseat, hpending⟩, ← hshards] at hstate
    have hx : x < s'.shards.shardIdCounter := by
      rw [hshards, hrest]
      exact hf.created hsound.numbered hmem
    have hgone := (hlives.offline x hx hstate).1 a
    rw [hshards, hrest] at hgone
    exact hmem hgone
  · intro hlate
    have hact := exec_act hsound hexec
    have hf' : Filed s'.shards := run_filed (h.next hlate hexec)
    have hc' := exec_cleared hsound hexec hlate hc
    generalize hs₀ : opening s i.call = s₀ at hact
    have hshards : s₀.shards = s.shards := by rw [← hs₀, opening_shards]
    rw [← hshards] at hf hc
    have hn : Numbered s₀.shards := hshards ▸ hsound.numbered
    have hr : Ready s₀.shards := hshards ▸ hsound.ready
    refine ⟨fun x hx => ?_, fun x hle hx => ?_, fun x _ hoff => offline_of_cleared hf' hc' hoff⟩
    · rw [← hshards] at hx ⊢
      exact hact.forward hn hr hlt hf hc hx
    · rw [← hshards] at hle
      exact hact.created hn hlt hle hx

end Lives

/-! Nobody returns late in a run without a registration for another
network: until a shard has its key all its members stay online. -/

section Late

variable {cfg : Config} {is : List Input} {s : State}

theorem intact_genesis : Intact State.genesis.roster where
  pending_online hs := by cases hs
  bounded hs := by cases hs
  serving hs := by cases hs
  live hs := absurd rfl hs

theorem run_intact (h : ChainRun cfg (SameNetwork cfg) is s) :
    ∃ home, Seated home s.roster ∧ Intact s.roster := by
  refine run_roster (P := fun r => ∃ home, Seated home r ∧ Intact r)
    ⟨fun _ => 0, seated_genesis _, intact_genesis⟩ ?_ h
  rintro s i r' ⟨home, hseated, hintact⟩ hok (hsteps | ⟨hcall, hadmin, rfl⟩ | ⟨-, -, rfl⟩)
  · have hlists : ∀ a n, s.roster.network a = some n → n = home a :=
      fun _ _ hn => hseated.network_home hn
    exact ⟨home, hseated.steps hsteps hlists, hintact.steps hsteps hlists hseated⟩
  · obtain ⟨hwait, hseat⟩ := hok _ _ _ _ hcall hadmin
    exact ⟨_, hseated.register hwait fun {shard n} => hseat shard n, hintact.register _ _⟩
  · exact ⟨home, hseated.unregister _, hintact.unregister _⟩

theorem run_notLate (h : ChainRun cfg (SameNetwork cfg) is s) :
    ChainRun cfg (fun s i => ¬ReturnsLate s i) is s := by
  refine h.imp fun {is s i} hrun _ => ?_
  obtain ⟨home, hseated, hintact⟩ := run_intact hrun
  rintro ⟨a, x, -, hoff, -, hseat, hpending⟩
  obtain ⟨status, hstatus, hp⟩ := ShardStatus.exists_of_any hpending
  have honline := hintact.pending_online hstatus hp (hseated.seat_iff.mp hseat)
  exact StorageMap.containsKey_iff.mp honline hoff

end Late

/-- Who sends a heartbeat. -/
def Call.sender : Call → Option AccountId
  | .sendHeartbeat (.signed a) => some a
  | _ => none

theorem not_returnsLate {s : State} {i : Input} (h : i.call.sender = none) :
    ¬ReturnsLate s i := by
  rintro ⟨a, x, hcall, -⟩
  rw [hcall] at h
  cases h

/-- The member of a new shard commits. -/
theorem lives_iff_commit :
    (exampleState electedCalls).shards.shardState.get 0 = some .created ∧
      Lives (exampleState electedCalls) (exampleState (electedCalls ++ exampleKeygen.take 1)) := by
  have hbeat : ChainRun exampleConfig (fun s i => ¬ReturnsLate s i)
      ([exampleRegister 0, exampleHeartbeat].map exampleInput)
      (exampleState [exampleRegister 0, exampleHeartbeat]) := by
    have hregister : ChainRun exampleConfig (fun s i => ¬ReturnsLate s i)
        ([exampleRegister 0].map exampleInput) (exampleState [exampleRegister 0]) :=
      exampleState_run (by simp [exampleInput, exampleRegister, ReturnsLate]) (by decide +kernel)
    refine exampleState_next hregister ?_ (by decide +kernel)
    rintro ⟨a, x, hcall, -, -, hseat, -⟩
    cases hcall
    have hfree : (exampleState [exampleRegister 0]).shards.memberShard.get exampleMember = none :=
      by decide +kernel
    rw [hfree] at hseat
    cases hseat
  have hlater : ∀ call ∈ electedCalls.drop 2, call.sender = none := by decide
  have hrun : ChainRun exampleConfig (fun s i => ¬ReturnsLate s i) (electedCalls.map exampleInput)
      (exampleState electedCalls) :=
    @exampleState_append _ _ (electedCalls.drop 2) hbeat
      (fun _ call hcall => not_returnsLate (hlater call hcall)) (by decide +kernel)
  have hexec := @exampleState_exec electedCalls _ (by decide +kernel)
    (by decide +kernel : exampleRuns (electedCalls ++ exampleKeygen.take 1) = true)
  exact ⟨by decide +kernel, (lives_iff hrun hexec).mpr (not_returnsLate rfl)⟩

def secondMember : AccountId := Vector.replicate 32 3

/-- The first member is registered for another network while it waits, and
goes offline there. It keeps its place in the list and is elected with the
second member. Shards have two members. -/
def lateInputs : List Input :=
  (exampleBlock [exampleRegister 0, exampleHeartbeat, exampleRegister 1] ++ exampleBlock [] ++
    exampleBlock [.registerMember .root 0 (.sr25519 secondMember) (Vector.replicate 32 4),
      .sendHeartbeat (.signed secondMember)] ++ exampleBlock []).map
    (Input.mk { exampleNetworks with shardSize := fun _ => 2 })

/-- Its heartbeat leaves an offline shard with two members. -/
theorem late_return_not_cleared :
    ¬∀ (is : List Input) (s : State) (i : Input) (s' : State),
      ChainRun exampleConfig (fun _ _ => True) is s → exec exampleConfig s i = some s' →
        Lives s s' := by
  intro hall
  have hruns : (lateInputs.foldlM (exec exampleConfig) State.genesis).isSome = true := by
    decide +kernel
  have hruns' : ((lateInputs ++ [exampleInput exampleHeartbeat]).foldlM (exec exampleConfig)
      State.genesis).isSome = true := by decide +kernel
  have hexec : exec exampleConfig (Run.endState (exec exampleConfig) State.genesis lateInputs)
      (exampleInput exampleHeartbeat) = some (Run.endState (exec exampleConfig) State.genesis
        (lateInputs ++ [exampleInput exampleHeartbeat])) := by
    have hend := Run.foldlM_eq_endState hruns'
    rw [List.foldlM_append, Run.foldlM_eq_endState hruns] at hend
    simpa using hend
  have hlives := hall _ _ _ _ (Run.to_endState (fun _ _ _ => trivial) hruns) hexec
  have hgone := (hlives.offline 0 (by decide +kernel) (by decide +kernel)).1 secondMember
  have hmember : (Run.endState (exec exampleConfig) State.genesis
      (lateInputs ++ [exampleInput exampleHeartbeat])).shards.shardMembers.get (0, secondMember)
        ≠ none := by decide +kernel
  exact hmember hgone

end Chain

end Timechain
