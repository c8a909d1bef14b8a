import Mathlib.Data.ZMod.Basic
import Timechain.ChainElection
import Timechain.Sharing

/-!
# The group commitment

When the last member of a shard has committed, the members' commitments are
added up, key by key, and every partial sum is encoded again. The identity
has no encoding: commitments are only added up if no partial sum, in the
order in which the storage is iterated, is the identity.

Members see the commitments of others before they choose their own, and
prove knowledge only of the first coefficient. A member can choose another
coefficient such that it cancels those before it, and the last commit
panics.
-/

namespace Timechain

namespace Chain

open Sharing (sumLists)

/-- Verifying keys are the encodings of the elements of a group other than
the identity. -/
structure KeyGroup (cfg : Config) (G : Type) [AddCommGroup G] where
  fromBytes : TssPublicKey → Option G
  toBytes : G → Option TssPublicKey
  isVerifyingKey : ∀ key, cfg.isVerifyingKey key = (fromBytes key).isSome
  addKeys : ∀ key key', cfg.addKeys key key' = do
    let x ← fromBytes key
    let y ← fromBytes key'
    toBytes (x + y)
  toBytes_zero : toBytes 0 = none
  fromBytes_toBytes : ∀ x, x ≠ 0 → ∃ key, toBytes x = some key ∧ fromBytes key = some x

section Sums

variable {cfg : Config} {G : Type} [AddCommGroup G] (K : KeyGroup cfg G)

/-- The elements of a commitment. -/
def KeyGroup.points (commitment : Commitment) : List G :=
  commitment.val.map fun key => (K.fromBytes key).getD 0

/-- `commitment` encodes the elements `xs`. -/
def KeyGroup.Encodes (commitment : Commitment) (xs : List G) : Prop :=
  commitment.val.map K.fromBytes = xs.map some

theorem encodes_points {commitment : Commitment}
    (h : ∀ key ∈ commitment.val, cfg.isVerifyingKey key = true) :
    K.Encodes commitment (K.points commitment) := by
  rw [KeyGroup.Encodes, KeyGroup.points, List.map_map]
  refine List.map_congr_left fun key hkey => ?_
  have hsome := h key hkey
  rw [K.isVerifyingKey] at hsome
  obtain ⟨x, hx⟩ := Option.isSome_iff_exists.mp hsome
  simp [hx]

theorem KeyGroup.addKeys_eq {key key' : TssPublicKey} {x y : G} (hx : K.fromBytes key = some x)
    (hy : K.fromBytes key' = some y) : cfg.addKeys key key' = K.toBytes (x + y) := by
  rw [K.addKeys, hx, hy]
  rfl

/-- Without the identity among the sums, the sums are encoded. -/
theorem addKeys_some {group commitment : List TssPublicKey} {xs ys : List G}
    (hx : group.map K.fromBytes = xs.map some) (hy : commitment.map K.fromBytes = ys.map some)
    (hlen : xs.length = ys.length) (h : 0 ∉ List.zipWith (· + ·) xs ys) :
    ∃ keys, Shards.addKeys cfg group commitment = some keys ∧
      keys.map K.fromBytes = (List.zipWith (· + ·) xs ys).map some := by
  induction xs generalizing group commitment ys with
  | nil =>
      cases List.map_eq_nil_iff.mp hx
      exact ⟨[], rfl, rfl⟩
  | cons x xs ih =>
      cases ys with
      | nil => cases hlen
      | cons y ys =>
          obtain ⟨key, group, rfl, hkey, hgroup⟩ := List.map_eq_cons_iff.mp hx
          obtain ⟨key', commitment, rfl, hkey', hcommitment⟩ := List.map_eq_cons_iff.mp hy
          obtain ⟨hne, hrest⟩ := not_or.mp (mt List.mem_cons.mpr h)
          obtain ⟨sum, hsum, hdecode⟩ := K.fromBytes_toBytes (x + y) (Ne.symm hne)
          obtain ⟨keys, hkeys, hmap⟩ := ih hgroup hcommitment (Nat.succ.inj hlen) hrest
          refine ⟨sum :: keys, ?_, ?_⟩
          · rw [Shards.addKeys, K.addKeys_eq hkey hkey', hsum, hkeys]
            rfl
          · rw [List.map_cons, hdecode, hmap]
            rfl

theorem addKeys_none {group commitment : List TssPublicKey} {xs ys : List G}
    (hx : group.map K.fromBytes = xs.map some) (hy : commitment.map K.fromBytes = ys.map some)
    (h : 0 ∈ List.zipWith (· + ·) xs ys) : Shards.addKeys cfg group commitment = none := by
  induction xs generalizing group commitment ys with
  | nil => cases h
  | cons x xs ih =>
      cases ys with
      | nil => cases h
      | cons y ys =>
          obtain ⟨key, group, rfl, hkey, hgroup⟩ := List.map_eq_cons_iff.mp hx
          obtain ⟨key', commitment, rfl, hkey', hcommitment⟩ := List.map_eq_cons_iff.mp hy
          rw [Shards.addKeys, K.addKeys_eq hkey hkey']
          rcases List.mem_cons.mp h with hzero | hrest
          · rw [(congrArg K.toBytes hzero.symm).trans K.toBytes_zero]
            rfl
          · rw [ih hgroup hcommitment hrest]
            cases K.toBytes (x + y) <;> rfl

theorem addCommitment_val (group commitment : Commitment) :
    (Shards.addCommitment cfg group commitment).map Subtype.val =
      Shards.addKeys cfg group.val commitment.val := by
  rw [Shards.addCommitment]
  split
  · next keys hkeys => exact hkeys.symm
  · next hnone => exact hnone.symm

theorem addCommitment_some {group commitment : Commitment} {xs ys : List G}
    (hx : K.Encodes group xs) (hy : K.Encodes commitment ys) (hlen : xs.length = ys.length)
    (h : 0 ∉ List.zipWith (· + ·) xs ys) :
    ∃ group', Shards.addCommitment cfg group commitment = some group' ∧
      K.Encodes group' (List.zipWith (· + ·) xs ys) := by
  obtain ⟨keys, hkeys, hmap⟩ := addKeys_some K hx hy hlen h
  rw [← addCommitment_val] at hkeys
  obtain ⟨group', hgroup', rfl⟩ := Option.map_eq_some_iff.mp hkeys
  exact ⟨group', hgroup', hmap⟩

theorem addCommitment_none {group commitment : Commitment} {xs ys : List G}
    (hx : K.Encodes group xs) (hy : K.Encodes commitment ys)
    (h : 0 ∈ List.zipWith (· + ·) xs ys) : Shards.addCommitment cfg group commitment = none := by
  have hnone := addKeys_none K hx hy h
  rw [← addCommitment_val] at hnone
  exact Option.map_eq_none_iff.mp hnone

/-- Commitments of `n` keys each, added up so far to `xs`. -/
theorem foldlM_addCommitment {n : Nat} {rest : List Commitment} {group : Commitment} {xs : List G}
    (hx : K.Encodes group xs) (hlen : xs.length = n)
    (hrest : ∀ c ∈ rest, K.Encodes c (K.points c) ∧ (K.points c).length = n) :
    ((∀ k, 1 ≤ k → k ≤ rest.length →
        0 ∉ List.zipWith (· + ·) xs (sumLists n ((rest.take k).map K.points))) →
      ∃ group', rest.foldlM (Shards.addCommitment cfg) group = some group' ∧
        K.Encodes group' (List.zipWith (· + ·) xs (sumLists n (rest.map K.points)))) ∧
    ((∃ k, 1 ≤ k ∧ k ≤ rest.length ∧
        0 ∈ List.zipWith (· + ·) xs (sumLists n ((rest.take k).map K.points))) →
      rest.foldlM (Shards.addCommitment cfg) group = none) := by
  induction rest generalizing group xs with
  | nil =>
      refine ⟨fun _ => ⟨group, rfl, ?_⟩, ?_⟩
      · change K.Encodes group (List.zipWith (· + ·) xs (List.replicate n 0))
        rw [Sharing.zipWith_add_replicate_zero hlen]
        exact hx
      · rintro ⟨k, hk, hle, -⟩
        have hle : k ≤ 0 := hle
        omega
  | cons c rest ih =>
      obtain ⟨⟨hc, hclen⟩, hrest⟩ := List.forall_mem_cons.mp hrest
      -- the sum of one more commitment, and the sums after it
      have hone : List.zipWith (· + ·) xs (sumLists n (((c :: rest).take 1).map K.points)) =
          List.zipWith (· + ·) xs (K.points c) := by
        change List.zipWith (· + ·) xs (List.zipWith (· + ·) (K.points c) (List.replicate n 0)) = _
        rw [Sharing.zipWith_add_replicate_zero hclen]
      have hmore : ∀ k, List.zipWith (· + ·) xs
            (sumLists n (((c :: rest).take (k + 1)).map K.points)) =
          List.zipWith (· + ·) (List.zipWith (· + ·) xs (K.points c))
            (sumLists n ((rest.take k).map K.points)) :=
        fun k => (Sharing.zipWith_add_assoc ..).symm
      have hall : List.zipWith (· + ·) xs (sumLists n ((c :: rest).map K.points)) =
          List.zipWith (· + ·) (List.zipWith (· + ·) xs (K.points c))
            (sumLists n (rest.map K.points)) :=
        (Sharing.zipWith_add_assoc ..).symm
      have hlen' : (List.zipWith (· + ·) xs (K.points c)).length = n := by
        rw [List.length_zipWith, hlen, hclen, Nat.min_self]
      by_cases hzero : 0 ∈ List.zipWith (· + ·) xs (K.points c)
      · have hnone : (c :: rest).foldlM (Shards.addCommitment cfg) group = none := by
          rw [List.foldlM_cons, addCommitment_none K hx hc hzero]
          rfl
        refine ⟨fun h => absurd hzero ?_, fun _ => hnone⟩
        rw [← hone]
        exact h 1 (Nat.le_refl 1) (Nat.succ_le_succ (Nat.zero_le _))
      · obtain ⟨group', hgroup', hencodes⟩ :=
          addCommitment_some K hx hc (hlen.trans hclen.symm) hzero
        have hfold : (c :: rest).foldlM (Shards.addCommitment cfg) group =
            rest.foldlM (Shards.addCommitment cfg) group' := by
          rw [List.foldlM_cons, hgroup']
          rfl
        obtain ⟨hsome, hnone⟩ := ih hencodes hlen' hrest
        rw [hfold, hall]
        refine ⟨fun h => hsome fun k hk hle => ?_, ?_⟩
        · rw [← hmore]
          exact h (k + 1) (Nat.succ_pos k) (Nat.succ_le_succ hle)
        · rintro ⟨k, hk, hle, hmem⟩
          cases k with
          | zero => cases hk
          | succ k =>
              refine hnone ⟨k, ?_, Nat.le_of_succ_le_succ hle, by rw [← hmore]; exact hmem⟩
              -- one more commitment alone does not give the identity
              rcases Nat.eq_zero_or_pos k with rfl | hpos
              · rw [hone] at hmem
                exact absurd hmem hzero
              · exact hpos

end Sums

/-! ## Committing -/

/-- A member's commit. -/
structure Commit where
  member : AccountId
  commitment : Commitment
  proofOfKnowledge : ProofOfKnowledge

/-- The commitments of a shard, as they are iterated. -/
def commitments (cfg : Config) (sh : ShardsStore) (shard : ShardId) : List Commitment :=
  ((Shards.getShardMembers cfg sh shard).map Prod.snd).filterMap MemberStatus.commitment

/-- A commit that succeeds and does not panic. -/
def commit (cfg : Config) (shard : ShardId) (s : State) (c : Commit) : Option State :=
  (Shards.executeCommit s cfg c.member shard c.commitment c.proofOfKnowledge).toOption.join

/-- The commits as they are stored. -/
def written (shard : ShardId) (order : List Commit) (s : State) : State :=
  order.foldl (fun s c => writeStatus s shard c.member (.committed c.commitment)) s

/-- The checks of `execute_commit` on the commitment. -/
structure Passes (cfg : Config) (s : State) (shard : ShardId) (c : Commit) : Prop where
  length : c.commitment.val.length = s.shards.shardThreshold.getD shard 0
  keys : ∀ key ∈ c.commitment.val, cfg.isVerifyingKey key = true
  proof : ∃ peerId, s.members.memberPeerId.get c.member = some peerId ∧
    cfg.verifyProofOfKnowledge peerId c.commitment.val c.proofOfKnowledge = true

section Commits

variable {cfg : Config} {s : State} {shard : ShardId} {c : Commit}

theorem executeCommit_eq (hadded : s.shards.shardMembers.get (shard, c.member) = some .added)
    (h : Passes cfg s shard c) :
    Shards.executeCommit s cfg c.member shard c.commitment c.proofOfKnowledge =
      Shards.commitShard (writeStatus s shard c.member (.committed c.commitment)) cfg shard := by
  obtain ⟨peerId, hpeer, hproof⟩ := h.proof
  have hkeys : c.commitment.val.all cfg.isVerifyingKey = true := List.all_eq_true.mpr h.keys
  simp only [Shards.executeCommit, hadded, h.length, hkeys, hpeer, hproof, ensure, okOr,
    decide_true, if_true, bind, Except.bind]
  rfl

/-- As long as a member has not committed, a commit is only stored. -/
theorem commit_early (hadded : s.shards.shardMembers.get (shard, c.member) = some .added)
    (h : Passes cfg s shard c) {b : AccountId} (hb : b ≠ c.member)
    (hwaiting : s.shards.shardMembers.get (shard, b) = some .added) :
    commit cfg shard s c = some (writeStatus s shard c.member (.committed c.commitment)) := by
  have hmem : (b, MemberStatus.added) ∈ Shards.getShardMembers cfg
      (writeStatus s shard c.member (.committed c.commitment)).shards shard := by
    refine StorageMap.mem_iterPrefix.mpr ?_
    rw [← hwaiting]
    exact StorageMap.get_insert_of_ne _ _ fun heq => hb (Prod.mk.inj heq).2
  have hall : ((Shards.getShardMembers cfg
      (writeStatus s shard c.member (.committed c.commitment)).shards shard).map Prod.snd).all
        MemberStatus.isCommitted = false := by
    refine List.all_eq_false.mpr ⟨.added, List.mem_map_of_mem hmem, ?_⟩
    exact Bool.false_ne_true
  rw [commit, executeCommit_eq hadded h, Shards.commitShard, hall]
  rfl

theorem Passes.writeStatus (h : Passes cfg s shard c) (a : AccountId) (status : MemberStatus) :
    Passes cfg (writeStatus s shard a status) shard c := ⟨h.length, h.keys, h.proof⟩

theorem foldlM_commit_early {order : List Commit} {b : AccountId}
    (hnodup : (order.map Commit.member).Nodup)
    (hadded : ∀ c ∈ order, s.shards.shardMembers.get (shard, c.member) = some .added)
    (h : ∀ c ∈ order, Passes cfg s shard c) (hb : b ∉ order.map Commit.member)
    (hwaiting : s.shards.shardMembers.get (shard, b) = some .added) :
    order.foldlM (commit cfg shard) s = some (written shard order s) := by
  induction order generalizing s with
  | nil => rfl
  | cons c order ih =>
      obtain ⟨hfirst, hnodup⟩ := List.nodup_cons.mp hnodup
      obtain ⟨hcadded, hadded⟩ := List.forall_mem_cons.mp hadded
      obtain ⟨hc, h⟩ := List.forall_mem_cons.mp h
      obtain ⟨hbc, hb⟩ := not_or.mp (mt List.mem_cons.mpr hb)
      have hother : ∀ a, a ≠ c.member →
          (writeStatus s shard c.member (.committed c.commitment)).shards.shardMembers.get (shard, a)
            = s.shards.shardMembers.get (shard, a) :=
        fun a ha => StorageMap.get_insert_of_ne _ _ fun heq => ha (Prod.mk.inj heq).2
      rw [List.foldlM_cons, commit_early hcadded hc hbc hwaiting]
      refine ih hnodup (fun d hd => ?_) (fun d hd => (h d hd).writeStatus ..) hb
        ((hother b hbc).trans hwaiting)
      refine (hother d.member ?_).trans (hadded d hd)
      intro heq
      exact hfirst (heq ▸ List.mem_map_of_mem hd)

end Commits

section Written

variable {cfg : Config} {s : State} {shard : ShardId} {order : List Commit}

theorem written_get_of_not_mem {a : AccountId} (h : a ∉ order.map Commit.member) :
    (written shard order s).shards.shardMembers.get (shard, a) =
      s.shards.shardMembers.get (shard, a) := by
  induction order generalizing s with
  | nil => rfl
  | cons c order ih =>
      obtain ⟨hc, h⟩ := not_or.mp (mt List.mem_cons.mpr h)
      refine (ih h).trans ?_
      exact StorageMap.get_insert_of_ne _ _ fun heq => hc (Prod.mk.inj heq).2

theorem written_get (hnodup : (order.map Commit.member).Nodup) {c : Commit} (hc : c ∈ order) :
    (written shard order s).shards.shardMembers.get (shard, c.member) =
      some (.committed c.commitment) := by
  induction order generalizing s with
  | nil => cases hc
  | cons d order ih =>
      obtain ⟨hd, hnodup⟩ := List.nodup_cons.mp hnodup
      rcases List.mem_cons.mp hc with rfl | hc
      · exact (written_get_of_not_mem hd).trans (StorageMap.get_insert_self ..)
      · exact ih hnodup hc

/-- The members of a shard commit in some order. -/
structure Enlisted (cfg : Config) (s : State) (shard : ShardId) (order : List Commit) : Prop where
  perm : (order.map fun c => (c.member, MemberStatus.added)).Perm
    (Shards.getShardMembers cfg s.shards shard)

theorem Enlisted.nodup (h : Enlisted cfg s shard order) : (order.map Commit.member).Nodup := by
  have hperm := h.perm.map Prod.fst
  rw [List.map_map] at hperm
  exact hperm.nodup_iff.mpr (StorageMap.iterPrefix_keys_nodup ..)

theorem Enlisted.added (h : Enlisted cfg s shard order) {c : Commit} (hc : c ∈ order) :
    s.shards.shardMembers.get (shard, c.member) = some .added :=
  StorageMap.mem_iterPrefix.mp (h.perm.mem_iff.mp (List.mem_map_of_mem hc))

theorem Enlisted.mem (h : Enlisted cfg s shard order) {a : AccountId} {status : MemberStatus}
    (ha : s.shards.shardMembers.get (shard, a) = some status) : a ∈ order.map Commit.member := by
  have hmem := h.perm.mem_iff.mpr (StorageMap.mem_iterPrefix.mpr ha)
  obtain ⟨c, hc, heq⟩ := List.mem_map.mp hmem
  exact List.mem_map.mpr ⟨c, hc, (Prod.mk.inj heq).1⟩

/-- Then all of them are iterated, with their commitments. -/
theorem Enlisted.written (h : Enlisted cfg s shard order) :
    (order.map fun c => (c.member, MemberStatus.committed c.commitment)).Perm
      (Shards.getShardMembers cfg (written shard order s).shards shard) := by
  have hfst : (order.map fun c => (c.member, MemberStatus.committed c.commitment)).map Prod.fst =
      order.map Commit.member := List.map_map
  refine (List.perm_ext_iff_of_nodup ?_ ?_).mpr fun p => ?_
  · exact List.Nodup.of_map Prod.fst (hfst ▸ h.nodup)
  · exact List.Nodup.of_map Prod.fst (StorageMap.iterPrefix_keys_nodup ..)
  · obtain ⟨a, status⟩ := p
    rw [Shards.getShardMembers, StorageMap.mem_iterPrefix]
    constructor
    · intro hp
      obtain ⟨c, hc, heq⟩ := List.mem_map.mp hp
      cases heq
      exact written_get h.nodup hc
    · intro hget
      have hmem : a ∈ order.map Commit.member := by
        by_contra hno
        rw [written_get_of_not_mem hno] at hget
        exact hno (h.mem hget)
      obtain ⟨c, hc, rfl⟩ := List.mem_map.mp hmem
      rw [written_get h.nodup hc] at hget
      cases hget
      exact List.mem_map_of_mem hc

theorem Enlisted.commitments (h : Enlisted cfg s shard order) :
    (order.map Commit.commitment).Perm
      (commitments cfg (Chain.written shard order s).shards shard) := by
  have hperm := (h.written.map Prod.snd).filterMap MemberStatus.commitment
  rw [List.map_map, List.filterMap_map] at hperm
  rw [Chain.commitments]
  refine List.Perm.trans (List.Perm.of_eq ?_) hperm
  exact congrFun List.filterMap_eq_map.symm order

theorem Passes.written {c : Commit} (h : Passes cfg s shard c) (order : List Commit) :
    Passes cfg (written shard order s) shard c := by
  induction order generalizing s with
  | nil => exact h
  | cons d order ih => exact ih (h.writeStatus ..)

theorem written_concat (pre : List Commit) (c : Commit) :
    written shard (pre ++ [c]) s =
      writeStatus (written shard pre s) shard c.member (.committed c.commitment) :=
  List.foldl_append

/-- The last commit has all commitments to add up. -/
theorem commit_last {pre : List Commit} {c : Commit} (h : Enlisted cfg s shard (pre ++ [c]))
    (hpasses : ∀ d ∈ pre ++ [c], Passes cfg s shard d) {first : Commitment}
    {rest : List Commitment}
    (hcommitments : commitments cfg (written shard (pre ++ [c]) s).shards shard = first :: rest) :
    (pre ++ [c]).foldlM (commit cfg shard) s =
      (rest.foldlM (Shards.addCommitment cfg) first).map fun group =>
        let s := written shard (pre ++ [c]) s
        Shards.depositEvent { s with shards := { s.shards with
          shardCommitment := s.shards.shardCommitment.insert shard group
          shardState := s.shards.shardState.insert shard .committed } }
          (.shardCommitted shard group) := by
  have hlast : c ∈ pre ++ [c] := List.mem_append_right pre List.mem_cons_self
  have hnodup := h.nodup
  rw [List.map_append] at hnodup
  obtain ⟨hpre, -, hdisjoint⟩ := List.nodup_append.mp hnodup
  have hnew : c.member ∉ pre.map Commit.member :=
    fun hmem => hdisjoint _ hmem _ List.mem_cons_self rfl
  have hearly : pre.foldlM (commit cfg shard) s = some (written shard pre s) :=
    foldlM_commit_early hpre (fun d hd => h.added (List.mem_append_left _ hd))
      (fun d hd => hpasses d (List.mem_append_left _ hd)) hnew (h.added hlast)
  have hadded : (written shard pre s).shards.shardMembers.get (shard, c.member) = some .added :=
    (written_get_of_not_mem hnew).trans (h.added hlast)
  have hall : ((Shards.getShardMembers cfg (written shard (pre ++ [c]) s).shards shard).map
      Prod.snd).all MemberStatus.isCommitted = true := by
    refine List.all_eq_true.mpr fun status hstatus => ?_
    have hmem := (h.written.map Prod.snd).mem_iff.mpr hstatus
    rw [List.map_map] at hmem
    obtain ⟨d, -, rfl⟩ := List.mem_map.mp hmem
    rfl
  rw [commitments] at hcommitments
  rw [List.foldlM_append, hearly]
  change ([c].foldlM (commit cfg shard) (written shard pre s)) = _
  rw [List.foldlM_cons, commit, executeCommit_eq hadded ((hpasses c hlast).written pre),
    ← written_concat, Shards.commitShard]
  simp only [hall, hcommitments, if_true]
  cases rest.foldlM (Shards.addCommitment cfg) first <;> rfl

end Written

/-- All members of a shard commit, in any order, and every commitment passes
the checks. The last commit succeeds, and stores the coordinate-wise sum of
the commitments, exactly if no partial sum in the order of iteration has the
identity as a coordinate. -/
theorem group_commitment_sum {cfg : Config} {G : Type} [AddCommGroup G] (K : KeyGroup cfg G)
    {s : State} {shard : ShardId} {order : List Commit} (hne : order ≠ [])
    (horder : (order.map fun c => (c.member, MemberStatus.added)).Perm
      (Shards.getShardMembers cfg s.shards shard))
    (hpasses : ∀ c ∈ order, Passes cfg s shard c) :
    (∃ s' group, order.foldlM (commit cfg shard) s = some s' ∧
      s'.shards.shardCommitment.get shard = some group ∧
      group.val.map K.fromBytes = (sumLists (s.shards.shardThreshold.getD shard 0)
        (order.map fun c => K.points c.commitment)).map some) ↔
    ∀ n, 2 ≤ n → n ≤ order.length →
      0 ∉ sumLists (s.shards.shardThreshold.getD shard 0)
        (((commitments cfg (written shard order s).shards shard).take n).map K.points) := by
  have h : Enlisted cfg s shard order := ⟨horder⟩
  have hperm := h.commitments
  have hvalid : ∀ c ∈ commitments cfg (written shard order s).shards shard,
      K.Encodes c (K.points c) ∧
        (K.points c).length = s.shards.shardThreshold.getD shard 0 := by
    intro c hc
    obtain ⟨d, hd, rfl⟩ := List.mem_map.mp (hperm.mem_iff.mpr hc)
    refine ⟨encodes_points K (hpasses d hd).keys, ?_⟩
    rw [KeyGroup.points, List.length_map, (hpasses d hd).length]
  have hsum : sumLists (s.shards.shardThreshold.getD shard 0)
      (order.map fun c => K.points c.commitment) =
      sumLists (s.shards.shardThreshold.getD shard 0)
        ((commitments cfg (written shard order s).shards shard).map K.points) := by
    refine Sharing.sumLists_perm ?_
    have hpoints := hperm.map K.points
    rw [List.map_map] at hpoints
    exact hpoints
  have hlength := hperm.length_eq
  rw [List.length_map] at hlength
  obtain ⟨pre, c, rfl⟩ := (List.eq_nil_or_concat' order).resolve_left hne
  rw [hsum, hlength]
  cases hcommitments : commitments cfg (written shard (pre ++ [c]) s).shards shard with
  | nil =>
      rw [hcommitments] at hlength
      simp at hlength
  | cons first rest =>
      rw [commit_last h hpasses hcommitments]
      rw [hcommitments] at hvalid
      obtain ⟨⟨hfirst, hlen⟩, hrest⟩ := List.forall_mem_cons.mp hvalid
      obtain ⟨hsome, hnone⟩ := foldlM_addCommitment K hfirst hlen hrest
      constructor
      · rintro ⟨s', group, hs', -, -⟩ n hn hle hzero
        cases n with
        | zero => cases hn
        | succ k =>
            rw [hnone ⟨k, Nat.le_of_succ_le_succ hn, Nat.le_of_succ_le_succ hle, hzero⟩] at hs'
            cases hs'
      · intro hsums
        obtain ⟨group, hfold, hencodes⟩ := hsome fun k hk hle =>
          hsums (k + 1) (Nat.succ_le_succ hk) (Nat.succ_le_succ hle)
        rw [hfold]
        exact ⟨_, group, rfl, StorageMap.get_insert_self .., hencodes⟩

/-! Two members share a shard with threshold 2, with the integers modulo 5
in the place of the group. -/

def exampleKeyOf (x : ZMod 5) : TssPublicKey := Vector.replicate 33 x.val.toUInt8

def exampleFromBytes (key : TssPublicKey) : Option (ZMod 5) :=
  (([1, 2, 3, 4] : List Nat).map fun n => (n : ZMod 5)).find? fun x => exampleKeyOf x = key

def exampleToBytes (x : ZMod 5) : Option TssPublicKey :=
  if x = 0 then none else some (exampleKeyOf x)

def pairConfig : Config :=
  { exampleConfig with
    isVerifyingKey := fun key => (exampleFromBytes key).isSome
    addKeys := fun key key' => do
      let x ← exampleFromBytes key
      let y ← exampleFromBytes key'
      exampleToBytes (x + y) }

def pairGroup : KeyGroup pairConfig (ZMod 5) where
  fromBytes := exampleFromBytes
  toBytes := exampleToBytes
  isVerifyingKey _ := rfl
  addKeys _ _ := rfl
  toBytes_zero := rfl
  fromBytes_toBytes x hx := ⟨exampleKeyOf x, if_neg hx, by revert x; decide +kernel⟩

def pairNetworks : Networks :=
  { exampleNetworks with
    shardSize := fun _ => 2
    shardThreshold := fun _ => 2 }

def pairMember (n : UInt8) : AccountId := Vector.replicate 32 n

/-- Two members come online and are elected. -/
def pairCalls : List Call :=
  exampleBlock [.registerMember .root 0 (.sr25519 (pairMember 1)) (Vector.replicate 32 2),
    .registerMember .root 0 (.sr25519 (pairMember 2)) (Vector.replicate 32 3),
    .sendHeartbeat (.signed (pairMember 1)), .sendHeartbeat (.signed (pairMember 2))] ++
  exampleBlock []

def pairState (calls : List Call) : State :=
  Run.endState (exec pairConfig) State.genesis (calls.map fun call => ⟨pairNetworks, call⟩)

def pairCommit (n : UInt8) (x y : ZMod 5) : Commit where
  member := pairMember n
  commitment := ⟨[exampleKeyOf x, exampleKeyOf y], (by decide : 2 ≤ maxShardSize)⟩
  proofOfKnowledge := Vector.replicate 65 0

/-- The extrinsic of a commit for shard 0. -/
def Commit.call (c : Commit) : Call :=
  .commit (.signed c.member) 0 c.commitment c.proofOfKnowledge

theorem pairCommit_passes {n : UInt8} {x y : ZMod 5} {s : State}
    (hthreshold : s.shards.shardThreshold.getD 0 0 = 2) (hx : x ≠ 0) (hy : y ≠ 0)
    (hpeer : s.members.memberPeerId.get (pairMember n) ≠ none) :
    Passes pairConfig s 0 (pairCommit n x y) := by
  have hkey : ∀ z : ZMod 5, z ≠ 0 → pairConfig.isVerifyingKey (exampleKeyOf z) = true := by
    decide +kernel
  obtain ⟨peerId, hpeerId⟩ := Option.ne_none_iff_exists'.mp hpeer
  refine ⟨hthreshold.symm, ?_, peerId, hpeerId, rfl⟩
  exact List.forall_mem_cons.mpr ⟨hkey x hx, List.forall_mem_singleton.mpr (hkey y hy)⟩

theorem group_commitment_sum_pair :
    ∃ s' group, [pairCommit 1 1 2, pairCommit 2 1 1].foldlM (commit pairConfig 0)
        (pairState pairCalls) = some s' ∧
      s'.shards.shardCommitment.get 0 = some group ∧
      group.val.map exampleFromBytes = [some 2, some 3] := by
  have hthreshold : (pairState pairCalls).shards.shardThreshold.getD 0 0 = 2 := by
    decide +kernel
  have horder : ([pairCommit 1 1 2, pairCommit 2 1 1].map fun c =>
      (c.member, MemberStatus.added)).Perm
        (Shards.getShardMembers pairConfig (pairState pairCalls).shards 0) := by decide +kernel
  have hpasses : ∀ c ∈ [pairCommit 1 1 2, pairCommit 2 1 1],
      Passes pairConfig (pairState pairCalls) 0 c :=
    List.forall_mem_cons.mpr
      ⟨pairCommit_passes hthreshold (by decide) (by decide) (by decide +kernel),
        List.forall_mem_singleton.mpr
          (pairCommit_passes hthreshold (by decide) (by decide) (by decide +kernel))⟩
  have hsum := (group_commitment_sum pairGroup (List.cons_ne_nil _ _) horder hpasses).mpr
    fun n hn hle => by
      obtain rfl : n = 2 := Nat.le_antisymm hle hn
      decide +kernel
  rw [hthreshold] at hsum
  exact hsum

def cancelledCalls : List Call := pairCalls ++ [(pairCommit 1 1 (2 : Nat)).call]

/-- The second member cancels the second coefficient of the first. -/
theorem cancelling_commit_panics :
    ChainRun pairConfig (fun _ _ => True)
      (cancelledCalls.map fun call => ⟨pairNetworks, call⟩) (pairState cancelledCalls) ∧
    Passes pairConfig (pairState cancelledCalls) 0 (pairCommit 2 1 3) ∧
    exec pairConfig (pairState cancelledCalls) ⟨pairNetworks, (pairCommit 2 1 3).call⟩ = none :=
  ⟨Run.to_endState (fun _ _ _ => trivial) (by decide +kernel),
    pairCommit_passes (by decide +kernel) (by decide) (by decide) (by decide +kernel),
    Option.isNone_iff_eq_none.mp (by decide +kernel)⟩

end Chain

end Timechain
