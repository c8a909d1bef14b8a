import Timechain.ChainRefine

/-!
# Members going on- and offline

A batch of members goes offline in two passes: the first collects, shard
by shard, how many members are left and whether the shard survives, the
second writes this back. `noteOffline_spec` says what the first pass has
collected after any list of members; with it the two passes are
`Roster.leave` followed by `Roster.dissolve`.
-/

namespace Timechain

namespace Chain

open Relation (ReflTransGen)

/-! ## The first pass -/

theorem nextStatus_nextStatus {status : ShardStatus} {c c' t : Nat} (h : c' ≤ c) :
    Shards.nextStatus (Shards.nextStatus status c t) c' t = Shards.nextStatus status c' t := by
  cases status with
  | created => rfl
  | committed => rfl
  | offline => rfl
  | online =>
      simp only [Shards.nextStatus]
      by_cases hc : c < t
      · rw [if_pos hc, if_pos (Nat.lt_of_le_of_lt h hc)]
      · rw [if_neg hc]

theorem nextStatus_eq_offline {status : ShardStatus} {c t : Nat} :
    Shards.nextStatus status c t = .offline ∧ status ≠ .offline
      ↔ status.isPending = true ∨ status = .online ∧ c < t := by
  cases status <;> simp [Shards.nextStatus, ShardStatus.isPending]

theorem nextStatus_of_ne {status : ShardStatus} {c t : Nat}
    (h : Shards.nextStatus status c t ≠ .offline) : Shards.nextStatus status c t = status := by
  cases status with
  | created => exact absurd rfl h
  | committed => exact absurd rfl h
  | offline => exact absurd rfl h
  | online =>
      simp only [Shards.nextStatus] at h ⊢
      split at h
      · exact absurd rfl h
      · next hc => rw [if_neg hc]

/-- The status of `x` when `as` have gone offline. -/
def statusAfter (s : State) (as : List AccountId) (x : ShardId) : Option ShardStatus :=
  match s.roster.status x, s.roster.threshold x with
  | some status, some threshold =>
      if s.roster.absent as x = 0 then some status
      else some (Shards.nextStatus status (s.roster.count x - s.roster.absent as x) threshold)
  | status, _ => status

theorem absent_concat (s : State) (as : List AccountId) (a : AccountId) (x : ShardId) :
    s.roster.absent (as ++ [a]) x
      = s.roster.absent as x + if s.roster.seat a = some x then 1 else 0 := by
  rw [Roster.absent, List.countP_append, List.countP_singleton]
  simp [Roster.absent]

theorem statusAfter_congr {s : State} {as as' : List AccountId} {x : ShardId}
    (h : s.roster.absent as' x = s.roster.absent as x) :
    statusAfter s as' x = statusAfter s as x := by
  simp only [statusAfter, h]

theorem falls_congr {s : State} {as as' : List AccountId} {x : ShardId}
    (h : s.roster.absent as' x = s.roster.absent as x) :
    s.roster.Falls as' x ↔ s.roster.Falls as x := by
  simp only [Roster.Falls, h]

/-- A shard that falls is the one whose status turns to offline. -/
theorem falls_iff {s : State} (as : List AccountId) {x : ShardId} {status : ShardStatus}
    {threshold : Nat} (hs : s.roster.status x = some status)
    (ht : s.roster.threshold x = some threshold) :
    s.roster.Falls as x ↔ statusAfter s as x = some .offline ∧ status ≠ .offline := by
  simp only [Roster.Falls, statusAfter, hs, ht]
  rcases Nat.eq_zero_or_pos (s.roster.absent as x) with h0 | hpos
  · simp [h0]
  · rw [if_neg (Nat.ne_of_gt hpos), Option.some.injEq, nextStatus_eq_offline]
    simp [hpos]

theorem statusAfter_of_falls {s : State} {as : List AccountId} {x : ShardId}
    (h : s.roster.Falls as x) : statusAfter s as x = some .offline := by
  obtain ⟨-, status, threshold, hs, ht, -⟩ := id h
  exact ((falls_iff as hs ht).mp h).1

theorem statusAfter_of_not_falls {s : State} {as : List AccountId} {x : ShardId}
    (h : ¬s.roster.Falls as x) : statusAfter s as x = s.roster.status x := by
  cases hs : s.roster.status x with
  | none => simp only [statusAfter, hs]
  | some status =>
      cases ht : s.roster.threshold x with
      | none => simp only [statusAfter, hs, ht]
      | some threshold =>
          rw [falls_iff as hs ht] at h
          simp only [statusAfter, hs, ht] at h ⊢
          split at h
          · next h0 => rw [if_pos h0]
          · next h0 =>
              rw [if_neg h0]
              rw [Option.some.injEq] at h ⊢
              by_cases hoff : status = .offline
              · rw [hoff]
                rfl
              · exact nextStatus_of_ne fun hno => h ⟨hno, hoff⟩

/-- What has been collected about the members in `as`. -/
structure Noted (s : State) (as : List AccountId) (acc : Shards.Updates) : Prop where
  get : ∀ x, acc.1.get x = if s.roster.absent as x = 0 then none
    else some (s.roster.count x - s.roster.absent as x, statusAfter s as x)
  nodup : acc.2.Nodup
  mem : ∀ x, x ∈ acc.2 ↔ s.roster.Falls as x

theorem Noted.getD {s : State} {as : List AccountId} {acc : Shards.Updates} (h : Noted s as acc)
    (x : ShardId) :
    acc.1.getD x (s.shards.shardMembersOnline.getD x 0, s.shards.shardState.get x)
      = (s.roster.count x - s.roster.absent as x, statusAfter s as x) := by
  rw [StorageMap.getD, h.get]
  by_cases h0 : s.roster.absent as x = 0
  · have hstatus : statusAfter s as x = s.shards.shardState.get x := by
      simp only [statusAfter, if_pos h0]
      split
      · next hs _ => exact hs.symm
      · rfl
    rw [if_pos h0, h0, hstatus]
    rfl
  · rw [if_neg h0]
    rfl

/-- One more absentee. -/
theorem statusAfter_succ {s : State} {as as' : List AccountId} {x : ShardId}
    {status : ShardStatus} {threshold : Nat} (hs : s.roster.status x = some status)
    (ht : s.roster.threshold x = some threshold)
    (h : s.roster.absent as' x = s.roster.absent as x + 1) :
    ∃ old, statusAfter s as x = some old ∧ (status = .offline → old = .offline) ∧
      statusAfter s as' x = some (Shards.nextStatus old
        (s.roster.count x - s.roster.absent as x - 1) threshold) := by
  have hnew : statusAfter s as' x = some (Shards.nextStatus status
      (s.roster.count x - s.roster.absent as x - 1) threshold) := by
    simp only [statusAfter, hs, ht, h]
    rw [if_neg (Nat.succ_ne_zero _), Nat.sub_add_eq]
  by_cases h0 : s.roster.absent as x = 0
  · refine ⟨status, ?_, id, hnew⟩
    simp only [statusAfter, hs, ht, if_pos h0]
  · refine ⟨Shards.nextStatus status (s.roster.count x - s.roster.absent as x) threshold, ?_, ?_, ?_⟩
    · simp only [statusAfter, hs, ht, if_neg h0]
    · rintro rfl
      rfl
    · rw [hnew, nextStatus_nextStatus (Nat.sub_le _ 1)]

/-- The shard of `a` is written, the others keep their entry. -/
theorem noted_insert {s : State} {as : List AccountId} {acc : Shards.Updates} {a : AccountId}
    {y : ShardId} (h : Noted s as acc) (hseat : s.roster.seat a = some y)
    {removed : List ShardId} (hnodup : removed.Nodup)
    (hmem : ∀ x, x ≠ y → (x ∈ removed ↔ x ∈ acc.2))
    (hself : y ∈ removed ↔ s.roster.Falls (as ++ [a]) y) :
    Noted s (as ++ [a])
      (acc.1.insert y (s.roster.count y - s.roster.absent as y - 1, statusAfter s (as ++ [a]) y),
        removed) := by
  have hsucc : s.roster.absent (as ++ [a]) y = s.roster.absent as y + 1 := by
    rw [absent_concat, if_pos hseat]
  have hother : ∀ x, x ≠ y → s.roster.absent (as ++ [a]) x = s.roster.absent as x := by
    intro x hx
    rw [absent_concat, if_neg]
    · rfl
    · intro hsome
      exact hx (Option.some.inj (hsome.symm.trans hseat))
  refine ⟨fun x => ?_, hnodup, fun x => ?_⟩
  · rw [StorageMap.get_insert]
    by_cases hx : x = y
    · rw [if_pos hx, hx, hsucc, if_neg (Nat.succ_ne_zero _), Nat.sub_add_eq]
    · rw [if_neg hx, hother x hx, statusAfter_congr (hother x hx)]
      exact h.get x
  · by_cases hx : x = y
    · rw [hx]
      exact hself
    · rw [hmem x hx, falls_congr (hother x hx)]
      exact h.mem x

theorem noteOffline_noted {s : State} {as : List AccountId} {acc : Shards.Updates}
    (h : Noted s as acc) (a : AccountId) :
    Noted s (as ++ [a]) (Shards.noteOffline s.shards acc a) := by
  cases hseat : s.shards.memberShard.get a with
  | none =>
      have habsent : ∀ x, s.roster.absent (as ++ [a]) x = s.roster.absent as x := by
        intro x
        rw [absent_concat, if_neg]
        · rfl
        · intro hsome
          rw [show s.roster.seat a = none from hseat] at hsome
          cases hsome
      simp only [Shards.noteOffline, hseat]
      refine ⟨fun x => ?_, h.nodup, fun x => ?_⟩
      · rw [habsent, statusAfter_congr (habsent x)]
        exact h.get x
      · rw [falls_congr (habsent x)]
        exact h.mem x
  | some y =>
      have hseat' : s.roster.seat a = some y := hseat
      have hsucc : s.roster.absent (as ++ [a]) y = s.roster.absent as y + 1 := by
        rw [absent_concat, if_pos hseat']
      simp only [Shards.noteOffline, hseat, h.getD y]
      split
      · next old threshold hold ht =>
          obtain ⟨status, hs⟩ : ∃ status, s.roster.status y = some status := by
            cases hs : s.roster.status y with
            | none =>
                simp only [statusAfter, hs] at hold
                cases hold
            | some status => exact ⟨status, rfl⟩
          obtain ⟨old', hold', hoff, hnew⟩ := statusAfter_succ hs ht hsucc
          obtain rfl : old' = old := Option.some.inj (hold'.symm.trans hold)
          rw [← hnew]
          have hbefore := falls_iff as hs ht
          have hafter := falls_iff (as ++ [a]) hs ht
          rw [hold', Option.some.injEq] at hbefore
          rw [hnew, Option.some.injEq] at hafter
          by_cases hfall : Shards.nextStatus old'
              (s.roster.count y - s.roster.absent as y - 1) threshold = .offline ∧ old' ≠ .offline
          · rw [if_pos hfall]
            have hout : y ∉ acc.2 := fun hy =>
              hfall.2 (hbefore.mp ((h.mem y).mp hy)).1
            refine noted_insert h hseat' ?_ ?_ ?_
            · rw [← List.concat_eq_append]
              exact h.nodup.concat hout
            · intro x hx
              simp [hx]
            · refine iff_of_true (by simp) (hafter.mpr ⟨hfall.1, ?_⟩)
              exact fun hno => hfall.2 (hoff hno)
          · rw [if_neg hfall]
            refine noted_insert h hseat' h.nodup (fun _ _ => Iff.rfl) ?_
            rw [h.mem, hbefore, hafter]
            refine and_congr_left fun hne => ⟨?_, fun hn => ?_⟩
            · rintro rfl
              rfl
            · exact Classical.byContradiction fun hno => hfall ⟨hn, hno⟩
      · next hnone =>
          have hkeep : statusAfter s (as ++ [a]) y = statusAfter s as y := by
            simp only [statusAfter]
            split
            · next status threshold hs ht =>
                obtain ⟨old, hold, -⟩ := statusAfter_succ hs ht hsucc
                exact absurd ht (hnone old threshold hold)
            · rfl
          rw [← hkeep]
          refine noted_insert h hseat' h.nodup (fun _ _ => Iff.rfl) ?_
          rw [h.mem]
          have hno : ∀ as', ¬s.roster.Falls as' y := by
            rintro as' ⟨-, status, threshold, hs, ht, -⟩
            obtain ⟨old, hold, -⟩ := statusAfter_succ hs ht hsucc
            exact hnone old threshold hold ht
          exact iff_of_false (hno as) (hno _)

theorem foldl_noteOffline (s : State) (as : List AccountId) :
    Noted s as (as.foldl (Shards.noteOffline s.shards) (∅, [])) := by
  induction as using List.reverseRecOn with
  | nil =>
      refine ⟨fun x => rfl, List.nodup_nil, fun x => iff_of_false List.not_mem_nil ?_⟩
      rintro ⟨hpos, -⟩
      exact Nat.lt_irrefl 0 hpos
  | append_singleton as a ih =>
      rw [List.foldl_append]
      exact noteOffline_noted ih a

/-! ## The second pass -/

section Write

variable {l : List (ShardId × Nat × Option ShardStatus)} {x : ShardId}

theorem foldl_writeUpdate_of_notMem (sh : ShardsStore) (h : x ∉ l.map Prod.fst) :
    (l.foldl Shards.writeUpdate sh).shardMembersOnline.get x = sh.shardMembersOnline.get x ∧
    (l.foldl Shards.writeUpdate sh).shardState.get x = sh.shardState.get x := by
  induction l generalizing sh with
  | nil => exact ⟨rfl, rfl⟩
  | cons update l ih =>
      rw [List.map_cons, List.mem_cons, not_or] at h
      obtain ⟨honline, hstate⟩ := ih (Shards.writeUpdate sh update) h.2
      rw [List.foldl_cons, honline, hstate]
      refine ⟨StorageMap.get_insert_of_ne _ _ h.1, ?_⟩
      simp only [Shards.writeUpdate]
      split
      · exact StorageMap.get_insert_of_ne _ _ h.1
      · rfl

theorem foldl_writeUpdate_of_mem (sh : ShardsStore) (hnodup : (l.map Prod.fst).Nodup)
    {online : Nat} {status : Option ShardStatus} (hmem : (x, online, status) ∈ l) :
    (l.foldl Shards.writeUpdate sh).shardMembersOnline.get x
      = some (if online < 2 ^ 16 then online else 0) ∧
    (l.foldl Shards.writeUpdate sh).shardState.get x = status.or (sh.shardState.get x) := by
  induction l generalizing sh with
  | nil => cases hmem
  | cons update l ih =>
      rw [List.map_cons, List.nodup_cons] at hnodup
      rcases List.mem_cons.mp hmem with rfl | hmem
      · obtain ⟨honline, hstate⟩ :=
          foldl_writeUpdate_of_notMem (Shards.writeUpdate sh (x, online, status)) hnodup.1
        rw [List.foldl_cons, honline, hstate]
        refine ⟨StorageMap.get_insert_self .., ?_⟩
        cases status with
        | none => rfl
        | some status => exact StorageMap.get_insert_self ..
      · have hx : x ≠ update.1 := by
          intro heq
          exact hnodup.1 (List.mem_map.mpr ⟨_, hmem, heq⟩)
        obtain ⟨honline, hstate⟩ := ih (Shards.writeUpdate sh update) hnodup.2 hmem
        rw [List.foldl_cons, honline, hstate]
        refine ⟨rfl, congrArg _ ?_⟩
        simp only [Shards.writeUpdate]
        split
        · exact StorageMap.get_insert_of_ne _ _ hx
        · rfl

theorem foldl_writeUpdate_rest (l : List (ShardId × Nat × Option ShardStatus))
    (sh : ShardsStore) : ∃ online state, l.foldl Shards.writeUpdate sh
      = { sh with shardMembersOnline := online, shardState := state } := by
  induction l generalizing sh with
  | nil => exact ⟨_, _, rfl⟩
  | cons update l ih => exact ih (Shards.writeUpdate sh update)

end Write

/-- Both passes: the counts go down, and a shard that falls is offline
before it is dissolved. -/
theorem write_noted {s : State} {as : List AccountId} {updates : StorageMap ShardId _}
    {removed : List ShardId} (h : Noted s as (updates, removed))
    (hcount : ∀ x, s.roster.count x < 2 ^ 16) (x : ShardId) :
    ((updates.iter id).foldl Shards.writeUpdate s.shards).shardMembersOnline.getD x 0
      = s.roster.count x - s.roster.absent as x ∧
    ((updates.iter id).foldl Shards.writeUpdate s.shards).shardState.get x
      = if x ∈ removed then some .offline else s.roster.status x := by
  have hget := h.get x
  have hremoved := h.mem x
  dsimp only at hget hremoved
  rcases Nat.eq_zero_or_pos (s.roster.absent as x) with h0 | hpos
  · rw [if_pos h0] at hget
    have hout : x ∉ (updates.iter id).map Prod.fst := fun hx => StorageMap.mem_map_iter.mp hx hget
    obtain ⟨honline, hstate⟩ := foldl_writeUpdate_of_notMem s.shards hout
    rw [if_neg fun hx => Nat.ne_of_gt (hremoved.mp hx).1 h0, StorageMap.getD, honline, hstate, h0]
    exact ⟨rfl, rfl⟩
  · rw [if_neg (Nat.ne_of_gt hpos)] at hget
    obtain ⟨honline, hstate⟩ := foldl_writeUpdate_of_mem s.shards
      (StorageMap.iter_keys_nodup id updates) (StorageMap.mem_iter.mpr hget)
    rw [StorageMap.getD, honline, hstate,
      if_pos (Nat.lt_of_le_of_lt (Nat.sub_le _ _) (hcount x))]
    refine ⟨rfl, ?_⟩
    by_cases hfalls : s.roster.Falls as x
    · rw [if_pos (hremoved.mpr hfalls), statusAfter_of_falls hfalls]
      rfl
    · rw [if_neg fun hx => hfalls (hremoved.mp hx), statusAfter_of_not_falls hfalls]
      exact Option.or_self

/-! ## Going offline -/

/-- Only the counts are taken down. -/
def discount (r : Roster AccountId NetworkId ShardId) (as : List AccountId) :
    Roster AccountId NetworkId ShardId :=
  { r with count := fun x => r.count x - r.absent as x }

theorem shardsMembersOffline_roster {cfg : Config} {networks : Networks} {s s' : State}
    {as : List AccountId} (h : Shards.membersOffline s cfg networks as = some s')
    (hcount : ∀ x, s.roster.count x < 2 ^ 16) :
    ∃ fallen : List ShardId, fallen.Nodup ∧ (∀ x, x ∈ fallen ↔ s.roster.Falls as x) ∧
      s'.roster = (discount s.roster as).dissolve fallen ∧ Still s s' := by
  have hnoted := foldl_noteOffline s as
  simp only [Shards.membersOffline] at h
  generalize as.foldl (Shards.noteOffline s.shards) (∅, []) = acc at h hnoted
  obtain ⟨updates, removed⟩ := acc
  have hwrite := write_noted hnoted hcount
  obtain ⟨online, state, hrest⟩ := foldl_writeUpdate_rest (updates.iter id) s.shards
  dsimp only at h
  rw [hrest] at h hwrite
  generalize hs₁ : ({ s with shards :=
    { s.shards with shardMembersOnline := online, shardState := state } } : State) = s₁ at h
  have hroster : s₁.roster = { discount s.roster as with
      status := fun x => if x ∈ removed then some .offline else s.roster.status x } := by
    subst hs₁
    refine Roster.ext rfl rfl rfl rfl rfl rfl rfl ?_ rfl ?_
    · funext x
      exact (hwrite x).2
    · funext x
      exact (hwrite x).1
  have hstill : Still s s₁ := by
    subst hs₁
    refine ⟨⟨id, fun hr => hr.mono (fun {x} hx => ?_) id, id, rfl, rfl, rfl, rfl⟩, rfl, rfl⟩
    have hstate := (hwrite x).2
    dsimp only at hx hstate
    rw [hx] at hstate
    split at hstate
    · cases hstate
    · exact hstate.symm
  refine ⟨removed, hnoted.nodup, hnoted.mem, ?_⟩
  have hdissolve : s₁.roster.dissolve removed = (discount s.roster as).dissolve removed := by
    rw [hroster]
    exact Roster.dissolve_status (discount s.roster as) fun x hx => if_neg hx
  split at h
  · next hnil =>
      cases h
      rw [← hdissolve, List.isEmpty_iff.mp hnil, Roster.dissolve_nil]
      exact ⟨rfl, hstill⟩
  · obtain ⟨hr, hs⟩ := removeShardsOffline_roster hnoted.nodup h
    exact ⟨hr.trans hdissolve, hstill.trans hs⟩

theorem membersOffline_roster {cfg : Config} {networks : Networks} {s s' : State}
    {group : NetworkId × List AccountId} (hcount : ∀ x, s.roster.count x < 2 ^ 16)
    (h : Members.membersOffline cfg networks s group = some s') :
    ∃ fallen : List ShardId, fallen.Nodup ∧ (∀ x, x ∈ fallen ↔ s.roster.Falls group.2 x) ∧
      s'.roster = (s.roster.leave group.2 group.1).dissolve fallen ∧ Still s s' := by
  obtain ⟨fallen, hnodup, hfallen, hroster, hstill⟩ := shardsMembersOffline_roster h hcount
  refine ⟨fallen, hnodup, hfallen, ?_, Still.trans ?_ hstill⟩
  swap
  · exact ⟨⟨fun hk => ⟨hk.peerId, hk.publicKey⟩, id, id, rfl, rfl, rfl, rfl⟩, rfl, rfl⟩
  rw [hroster]
  refine congrArg (fun r : Roster AccountId NetworkId ShardId => r.dissolve fallen) ?_
  refine Roster.ext rfl rfl ?_ ?_ rfl rfl rfl rfl rfl rfl
  · funext a
    refine (congrArg Option.isSome (StorageMap.get_removeAll ..)).trans ?_
    simp only [Roster.leave, State.roster, view, StorageMap.containsKey]
    by_cases ha : a ∈ group.2
    · rw [if_pos ha]
      simp [ha]
    · rw [if_neg ha]
      simp [ha]
  · funext network
    refine (coe_mutateUnassigned ..).trans ?_
    simp only [Roster.leave, Function.update_apply]
    refine if_congr Iff.rfl ?_ rfl
    convert (Multiset.filter_coe (fun m => m ∉ group.2) _).symm
    · simp
    · rfl

/-! ## Coming online -/

theorem shardsMemberOnline_rest (sh : ShardsStore) (a : AccountId) :
    ∃ online state, Shards.memberOnline sh a
      = { sh with shardMembersOnline := online, shardState := state } := by
  simp only [Shards.memberOnline]
  split
  · exact ⟨_, _, rfl⟩
  · split
    · exact ⟨_, _, rfl⟩
    · exact ⟨_, _, rfl⟩

theorem shardsMemberOnline_get (s : State) (a : AccountId) (network : NetworkId) (x : ShardId) :
    (Shards.memberOnline s.shards a).shardMembersOnline.getD x 0
      = (s.roster.goOnline a network).count x ∧
    (Shards.memberOnline s.shards a).shardState.get x
      = (s.roster.goOnline a network).status x := by
  cases hseat : s.roster.seat a with
  | none =>
      have hshard : s.shards.memberShard.get a = none := hseat
      simp only [Shards.memberOnline, hshard, Roster.goOnline, hseat]
      exact ⟨rfl, rfl⟩
  | some y =>
      have hshard : s.shards.memberShard.get a = some y := hseat
      cases hstatus : s.roster.status y with
      | none =>
          have hstate : s.shards.shardState.get y = none := hstatus
          simp only [Shards.memberOnline, hshard, hstate, Roster.goOnline, hseat, hstatus]
          exact ⟨rfl, rfl⟩
      | some status =>
          have hstate : s.shards.shardState.get y = some status := hstatus
          simp only [Shards.memberOnline, hshard, hstate, Roster.goOnline, hseat, hstatus,
            if_neg (Option.some_ne_none status), Option.any_some]
          refine ⟨?_, ?_⟩
          · rw [StorageMap.getD_insert, Function.update_apply]
            rfl
          · split
            · rw [StorageMap.get_insert, Function.update_apply]
              rfl
            · rfl

/-- Nobody comes online and brings a shard with them. -/
theorem goOnline_status_online {r : Roster AccountId NetworkId ShardId} {a : AccountId}
    {network : NetworkId} {x : ShardId}
    (h : (r.goOnline a network).status x = some .online) : r.status x = some .online := by
  simp only [Roster.goOnline] at h
  cases hseat : r.seat a with
  | none =>
      rw [hseat] at h
      exact h
  | some y =>
      rw [hseat] at h
      dsimp only at h
      split at h
      · rw [Function.update_apply] at h
        split at h
        · cases h
        · exact h
      · exact h

theorem memberOnline_roster (s : State) (a : AccountId) (network : NetworkId) :
    (Members.memberOnline s a network).roster = s.roster.goOnline a network ∧
      Still s (Members.memberOnline s a network) := by
  obtain ⟨online, state, hrest⟩ := shardsMemberOnline_rest s.shards a
  have hget := shardsMemberOnline_get s a network
  rw [hrest] at hget
  have honline : ∀ b, (s.members.memberOnline.insert a ()).containsKey b
      = Function.update s.roster.online a true b := by
    intro b
    rw [StorageMap.containsKey, StorageMap.get_insert, Function.update_apply]
    split
    · rfl
    · rfl
  have hready : Ready s.shards → Ready
      { s.shards with shardMembersOnline := online, shardState := state } := by
    refine fun hr => hr.mono (fun {x} hx => ?_) id
    exact goOnline_status_online ((hget x).2.symm.trans hx)
  have hmem : Shards.isShardMember s.shards a = (s.roster.seat a).isSome := rfl
  simp only [Members.memberOnline, Elections.memberOnline, Members.depositEvent, hmem]
  cases hseat : s.roster.seat a with
  | none =>
      simp only [Option.isSome_none, Bool.not_false, if_true, hrest]
      refine ⟨Roster.ext rfl rfl (funext honline) ?_ rfl rfl rfl ?_ rfl ?_,
        ⟨fun hk => ⟨hk.peerId, hk.publicKey⟩, hready, id, rfl, rfl, rfl, rfl⟩, rfl, rfl⟩
      · funext n
        refine (coe_mutateUnassigned ..).trans ?_
        simp only [Roster.goOnline, hseat, if_true, Function.update_apply]
        refine if_congr Iff.rfl ?_ rfl
        rw [coe_sortMembers, ← Multiset.coe_add, Multiset.coe_singleton, add_comm]
        rfl
      · exact funext fun x => (hget x).2
      · exact funext fun x => (hget x).1
  | some y =>
      simp only [Option.isSome_some, Bool.not_true, Bool.false_eq_true, if_false, hrest]
      refine ⟨Roster.ext rfl rfl (funext honline) ?_ rfl rfl rfl ?_ rfl ?_,
        ⟨fun hk => ⟨hk.peerId, hk.publicKey⟩, hready, id, rfl, rfl, rfl, rfl⟩, rfl, rfl⟩
      · simp only [Roster.goOnline, hseat, if_neg (Option.some_ne_none y)]
        rfl
      · exact funext fun x => (hget x).2
      · exact funext fun x => (hget x).1

/-! ## Heartbeats -/

/-- The timed-out members are split into those that go offline now, by
their networks, and the others. -/
structure Grouped (m : MembersStore) (members : List AccountId) (current current' : Groups)
    (next next' accepted kept : List AccountId) : Prop where
  perm : (accepted ++ kept).Perm members
  next_eq : next' = next ++ kept
  known : ∀ a ∈ accepted, m.memberNetwork.get a ≠ none
  group : ∀ network, current'.getD network [] = current.getD network []
    ++ accepted.filter fun a => m.memberNetwork.get a = some network

theorem groupTimedOut_grouped (cfg : Config) (m : MembersStore) (members : List AccountId)
    (numTimeouts : Nat) (current : Groups) (next : List AccountId) :
    ∃ accepted kept, Grouped m members current
      (Members.groupTimedOut cfg m members numTimeouts current next).1 next
      (Members.groupTimedOut cfg m members numTimeouts current next).2 accepted kept := by
  induction members generalizing numTimeouts current next with
  | nil =>
      exact ⟨[], [], .refl _, (List.append_nil _).symm, by simp, by simp [Members.groupTimedOut]⟩
  | cons a members ih =>
      -- A member that stays for the next time.
      have hkeep : ∀ {current' next' accepted kept},
          Grouped m members current current' (next ++ [a]) next' accepted kept →
          ∃ accepted kept, Grouped m (a :: members) current current' next next' accepted kept := by
        intro current' next' accepted kept h
        refine ⟨accepted, a :: kept, ?_, ?_, h.known, h.group⟩
        · exact List.perm_middle.trans (h.perm.cons a)
        · rw [h.next_eq, List.append_assoc, List.singleton_append]
      rw [Members.groupTimedOut]
      split
      · obtain ⟨accepted, kept, h⟩ := ih numTimeouts current (next ++ [a])
        exact hkeep h
      · split
        · next network hnet =>
            obtain ⟨accepted, kept, h⟩ := ih (numTimeouts + 1) (current.extend network [a]) next
            refine ⟨a :: accepted, kept, h.perm.cons a, h.next_eq, ?_, fun n => ?_⟩
            · intro b hb
              rcases List.mem_cons.mp hb with rfl | hb
              · rw [hnet]
                exact Option.some_ne_none network
              · exact h.known b hb
            · rw [h.group, Groups.extend, StorageMap.getD_insert, List.filter_cons, hnet]
              by_cases hn : n = network
              · subst hn
                simp
              · rw [if_neg hn, if_neg (by simpa using Ne.symm hn)]
        · obtain ⟨accepted, kept, h⟩ := ih numTimeouts current (next ++ [a])
          exact hkeep h

/-- The loop over the groups that go offline. -/
theorem foldlM_membersOffline (fits : Nat → Nat → Prop) {cfg : Config} {networks : Networks}
    {lists : AccountId → NetworkId → Prop}
    {groups : List (NetworkId × List AccountId)} {s s' : State}
    (h : groups.foldlM (Members.membersOffline cfg networks) s = some s')
    (hcount : ∀ x, s.roster.count x < 2 ^ 16) (hkeys : (groups.map Prod.fst).Nodup)
    (owner : AccountId → Option NetworkId)
    (hgroups : ∀ g ∈ groups, g.2.Nodup ∧
      ∀ a ∈ g.2, s.roster.online a = true ∧ lists a g.1 ∧ owner a = some g.1) :
    ReflTransGen (Roster.Step lists fits) s.roster s'.roster ∧ Still s s' ∧
      ∀ a, s'.roster.online a = true
        ↔ s.roster.online a = true ∧ a ∉ groups.flatMap Prod.snd := by
  induction groups generalizing s with
  | nil =>
      cases h
      exact ⟨.refl, .refl _, by simp⟩
  | cons g groups ih =>
      obtain ⟨s₁, h₁, h⟩ := Option.bind_eq_some_iff.mp h
      obtain ⟨fallen, hnodup, hfallen, hroster, hstill⟩ := membersOffline_roster hcount h₁
      rw [List.map_cons, List.nodup_cons] at hkeys
      have hg := hgroups g (List.mem_cons_self ..)
      have hstep : Roster.Step lists fits s.roster s₁.roster := by
        rw [hroster]
        exact .offline hg.1 (fun a ha => ⟨(hg.2 a ha).1, (hg.2 a ha).2.1⟩) hnodup hfallen
      have honline : ∀ a, s₁.roster.online a = true ↔ s.roster.online a = true ∧ a ∉ g.2 := by
        intro a
        rw [hroster]
        simp [Roster.dissolve, Roster.leave]
      -- Who is in a later group has not left yet: its owner is another network.
      have hrest : ∀ g' ∈ groups, g'.2.Nodup ∧
          ∀ a ∈ g'.2, s₁.roster.online a = true ∧ lists a g'.1 ∧ owner a = some g'.1 := by
        intro g' hg'
        obtain ⟨hnd, hall⟩ := hgroups g' (List.mem_cons_of_mem g hg')
        refine ⟨hnd, fun a ha => ?_⟩
        obtain ⟨hon, hl, how⟩ := hall a ha
        refine ⟨(honline a).mpr ⟨hon, fun hmem => hkeys.1 ?_⟩, hl, how⟩
        have heq : g'.1 = g.1 := Option.some.inj (how.symm.trans (hg.2 a hmem).2.2)
        exact List.mem_map.mpr ⟨g', hg', heq⟩
      obtain ⟨hsteps, hstill', hon⟩ := ih h (hstep.count_lt hcount) hkeys.2 hrest
      refine ⟨.head hstep hsteps, hstill.trans hstill', fun a => ?_⟩
      rw [hon, honline, List.flatMap_cons, List.mem_append, not_or, and_assoc]

/-- A member is online from its heartbeat to the second timeout after it. -/
structure Beats (s : State) : Prop where
  online_iff : ∀ a, s.roster.online a = true
    ↔ s.members.heartbeat.get a ≠ none ∨ a ∈ s.members.timedOut
  nodup : s.members.timedOut.Nodup
  disjoint : ∀ a ∈ s.members.timedOut, s.members.heartbeat.get a = none

theorem timeoutHeartbeats_moves (fits : Nat → Nat → Prop) {cfg : Config} {networks : Networks}
    {lists : AccountId → NetworkId → Prop} {s s' : State}
    (h : Members.timeoutHeartbeats s cfg networks = some s')
    (hcount : ∀ x, s.roster.count x < 2 ^ 16) (hbeats : Beats s)
    (hlists : ∀ a n, s.roster.network a = some n → lists a n) :
    ReflTransGen (Roster.Step lists fits) s.roster s'.roster ∧ Kept s s' ∧ Beats s' ∧
      ∀ a, s.members.heartbeat.get a ≠ none → a ∈ s'.members.timedOut := by
  obtain ⟨accepted, kept, hgrouped⟩ :=
    groupTimedOut_grouped cfg s.members s.members.timedOut 0 ∅ []
  simp only [Members.timeoutHeartbeats] at h
  generalize Members.groupTimedOut cfg s.members s.members.timedOut 0 ∅ [] = result at h hgrouped
  obtain ⟨current, next⟩ := result
  obtain ⟨s₁, h₁, h⟩ := Option.bind_eq_some_iff.mp h
  cases h
  have hnodup : (accepted ++ kept).Nodup := hgrouped.perm.nodup_iff.mpr hbeats.nodup
  have htimed : ∀ a, a ∈ s.members.timedOut ↔ a ∈ accepted ∨ a ∈ kept := by
    intro a
    rw [← hgrouped.perm.mem_iff, List.mem_append]
  have hgroup : ∀ network, current.getD network []
      = accepted.filter fun a => s.members.memberNetwork.get a = some network :=
    hgrouped.group
  have haccepted : ∀ a, a ∈ current.toList.flatMap Prod.snd ↔ a ∈ accepted := by
    intro a
    rw [mem_flatMap_toList]
    constructor
    · rintro ⟨network, ha⟩
      rw [hgroup] at ha
      exact List.mem_of_mem_filter ha
    · intro ha
      obtain ⟨network, hnet⟩ := Option.ne_none_iff_exists'.mp (hgrouped.known a ha)
      refine ⟨network, ?_⟩
      rw [hgroup, List.mem_filter]
      exact ⟨ha, by simpa using hnet⟩
  have hgroups : ∀ g ∈ current.toList, g.2.Nodup ∧ ∀ a ∈ g.2,
      s.roster.online a = true ∧ lists a g.1 ∧ s.roster.network a = some g.1 := by
    rintro ⟨network, members⟩ hg
    have hget : current.get network = some members := StorageMap.mem_iter.mp hg
    have hmembers := hgroup network
    rw [StorageMap.getD, hget, Option.getD_some] at hmembers
    refine ⟨?_, fun a ha => ?_⟩
    · rw [hmembers]
      exact hnodup.of_append_left.filter _
    · rw [hmembers, List.mem_filter, decide_eq_true_eq] at ha
      exact ⟨(hbeats.online_iff a).mpr (Or.inr ((htimed a).mpr (Or.inl ha.1))),
        hlists a network ha.2, ha.2⟩
  obtain ⟨hsteps, hstill, hon⟩ := foldlM_membersOffline fits h₁ hcount
    (StorageMap.iter_keys_nodup ..) s.roster.network hgroups
  have hnext : next = kept := hgrouped.next_eq
  refine ⟨hsteps, .trans hstill.toKept ⟨fun hk => ⟨hk.peerId, hk.publicKey⟩, id, id, rfl, rfl, rfl,
    rfl⟩, ⟨?_, ?_, ?_⟩, fun a ha => ?_⟩
  · intro a
    refine (hon a).trans ?_
    simp only [haccepted, hbeats.online_iff, hnext, List.mem_append, StorageMap.mem_map_iter,
      hstill.heartbeat, StorageMap.get_empty, ne_eq, not_true_eq_false, false_or, htimed]
    constructor
    · rintro ⟨hbeat | hacc | hkept, hno⟩
      · exact Or.inr hbeat
      · exact absurd hacc hno
      · exact Or.inl hkept
    · rintro (hkept | hbeat)
      · exact ⟨Or.inr (Or.inr hkept), fun hacc => List.disjoint_of_nodup_append hnodup hacc hkept⟩
      · refine ⟨Or.inl hbeat, fun hacc => hbeat (hbeats.disjoint a ?_)⟩
        exact (htimed a).mpr (Or.inl hacc)
  · rw [hnext, List.nodup_append']
    refine ⟨hnodup.of_append_right, StorageMap.iter_keys_nodup .., fun a ha hbeat => ?_⟩
    rw [StorageMap.mem_map_iter, hstill.heartbeat] at hbeat
    exact hbeat (hbeats.disjoint a ((htimed a).mpr (Or.inr ha)))
  · intro a _
    rfl
  · rw [← hstill.heartbeat] at ha
    exact List.mem_append_right _ (StorageMap.mem_map_iter.mpr ha)

/-- Storage when the heartbeat of `a` has been noted. -/
def noteHeartbeat (s : State) (a : AccountId) : State :=
  Members.depositEvent { s with members := { s.members with
    heartbeat := s.members.heartbeat.insert a ()
    timedOut := s.members.timedOut.filter fun m => m ≠ a } } (.heartbeatReceived a)

theorem noteHeartbeat_beats {s s₁ : State} {a : AccountId} (hbeats : Beats s) (hstill : Still s s₁)
    (honline : ∀ b, s₁.roster.online b = true ↔ b = a ∨ s.roster.online b = true) :
    Beats (noteHeartbeat s₁ a) := by
  have hmem : ∀ b, b ∈ (noteHeartbeat s₁ a).members.timedOut
      ↔ b ∈ s.members.timedOut ∧ b ≠ a := by
    intro b
    simp [noteHeartbeat, Members.depositEvent, hstill.timedOut]
  have hget : ∀ b, (noteHeartbeat s₁ a).members.heartbeat.get b
      = if b = a then some () else s.members.heartbeat.get b := by
    intro b
    rw [← hstill.heartbeat]
    exact StorageMap.get_insert ..
  refine ⟨fun b => ?_, ?_, fun b hb => ?_⟩
  · refine (honline b).trans ?_
    rw [hget, hmem, hbeats.online_iff]
    by_cases hba : b = a
    · simp [hba]
    · simp [hba]
  · refine List.Nodup.filter _ ?_
    rw [hstill.timedOut]
    exact hbeats.nodup
  · obtain ⟨hb, hba⟩ := (hmem b).mp hb
    rw [hget, if_neg hba]
    exact hbeats.disjoint b hb

theorem executeSendHeartbeat_moves {lists : AccountId → NetworkId → Prop}
    {fits : Nat → Nat → Prop} {s s' : State} {a : AccountId}
    (h : Members.executeSendHeartbeat s a = .ok s') (hbeats : Beats s) :
    ReflTransGen (Roster.Step lists fits) s.roster s'.roster ∧ Kept s s' ∧ Beats s' := by
  have hnoted : ∀ s₁, Kept s₁ (noteHeartbeat s₁ a) := fun s₁ =>
    ⟨fun hk => ⟨hk.peerId, hk.publicKey⟩, id, id, rfl, rfl, rfl, rfl⟩
  obtain ⟨-, -, h⟩ := bind_ok h
  obtain ⟨network, hnet, h⟩ := bind_ok h
  cases h
  cases hon : s.roster.online a with
  | true =>
      have hmem : Members.isMemberOnline s.members a = true := hon
      rw [hmem]
      refine ⟨.refl, hnoted s, noteHeartbeat_beats hbeats (.refl s) fun b => ⟨Or.inr, ?_⟩⟩
      rintro (rfl | hb)
      · exact hon
      · exact hb
  | false =>
      have hmem : Members.isMemberOnline s.members a = false := hon
      rw [hmem]
      obtain ⟨hroster, hstill⟩ := memberOnline_roster s a network
      have hstep : Roster.Step lists fits s.roster (Members.memberOnline s a network).roster := by
        rw [hroster]
        exact .online hon (okOr_ok hnet)
      refine ⟨.single hstep, hstill.toKept.trans (hnoted _),
        noteHeartbeat_beats hbeats hstill fun b => ?_⟩
      change (Members.memberOnline s a network).roster.online b = true ↔ _
      rw [hroster]
      simp only [Roster.goOnline, Function.update_apply]
      by_cases hba : b = a
      · simp [hba]
      · simp [hba]

theorem executeSendHeartbeat_heartbeat {s s' : State} {a : AccountId}
    (h : Members.executeSendHeartbeat s a = .ok s') (b : AccountId) :
    s'.members.heartbeat.get b = if b = a then some () else s.members.heartbeat.get b := by
  obtain ⟨-, -, h⟩ := bind_ok h
  obtain ⟨network, -, h⟩ := bind_ok h
  cases h
  refine (StorageMap.get_insert ..).trans ?_
  cases hon : Members.isMemberOnline s.members a with
  | true => rfl
  | false =>
      have hheartbeat := (memberOnline_roster s a network).2.heartbeat
      simp only [Bool.not_false, if_true, hheartbeat]

/-! ## Registration -/

theorem executeRegisterMember_roster (s : State) (cfg : Config) (network : NetworkId)
    (publicKey : PublicKey) (peerId : PeerId) :
    (Members.executeRegisterMember s cfg network publicKey peerId).roster
      = s.roster.register (publicKey.intoAccount cfg.blake2) network ∧
    Still s (Members.executeRegisterMember s cfg network publicKey peerId) := by
  refine ⟨Roster.ext ?_ ?_ rfl rfl rfl rfl rfl rfl rfl rfl,
    ⟨fun hk => ⟨fun a => ?_, fun a => ?_⟩, id, id, rfl, rfl, rfl, rfl⟩, rfl, rfl⟩
  · funext a
    refine (StorageMap.get_insert ..).trans ?_
    simp only [Roster.register, Function.update_apply]
    rfl
  · funext a
    refine (congrArg Option.isSome (StorageMap.get_insert ..)).trans ?_
    simp only [Roster.register, Function.update_apply]
    split
    · rfl
    · rfl
  · simp only [Members.executeRegisterMember, Members.depositEvent, StorageMap.get_insert]
    split
    · exact iff_of_false (Option.some_ne_none _) (Option.some_ne_none _)
    · exact hk.peerId a
  · simp only [Members.executeRegisterMember, Members.depositEvent, StorageMap.get_insert]
    split
    · exact iff_of_false (Option.some_ne_none _) (Option.some_ne_none _)
    · exact hk.publicKey a

theorem executeUnregisterMember_roster {s s' : State} {a : AccountId}
    (h : Members.executeUnregisterMember s a = .ok s') :
    s'.roster = s.roster.unregister a ∧ Still s s' := by
  obtain ⟨network, -, h⟩ := bind_ok h
  obtain ⟨-, -, h⟩ := bind_ok h
  cases h
  have hf := doUnregisterMember_forgets s.shards
    { s.members with memberRegistered := s.members.memberRegistered.remove a } a
  refine ⟨Roster.ext ?_ ?_ ?_ rfl rfl rfl rfl rfl rfl rfl,
    ⟨fun hk => ?_, id, id, rfl, rfl, rfl, rfl⟩, hf.heartbeat, hf.timedOut⟩
  · funext b
    refine (hf.network b).trans ?_
    simp only [Roster.unregister]
    by_cases hseat : s.roster.seat a = none
    · rw [if_pos hseat, Function.update_apply]
      by_cases hba : b = a
      · subst hba
        rw [if_pos rfl, if_pos ⟨rfl, hseat⟩]
      · rw [if_neg hba, if_neg fun hno => hba hno.1]
        rfl
    · rw [if_neg hseat, if_neg]
      · rfl
      · rintro ⟨rfl, hno⟩
        exact hseat hno
  · funext b
    refine (congrFun (congrArg StorageMap.containsKey hf.registered) b).trans ?_
    refine (congrArg Option.isSome (StorageMap.get_remove ..)).trans ?_
    simp only [Roster.unregister, Function.update_apply]
    split
    · rfl
    · rfl
  · exact congrArg StorageMap.containsKey hf.online
  · have hknown := hf.known ⟨hk.peerId, hk.publicKey⟩
    exact ⟨hknown.peerId, hknown.publicKey⟩

end Chain

end Timechain
