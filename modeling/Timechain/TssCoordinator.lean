import Mathlib.Data.Fintype.Card
import Timechain.TssNonces

/-!
# How many sessions a coordinator starts

A coordinator keeps apart the members it can ask (the pool) and those it
waits for (`Pending`): a member leaves the pool when a session takes its
commitment and comes back with its response. As long as every response
is one the coordinator waits for, and its share is valid, each member
waits in at most one session and never while it is in the pool. A
complete session then ends the coordinator, so a new one is started only
while all earlier ones still wait for somebody. With `threshold` members
in the pool, that leaves at most `n - threshold` earlier sessions
(`Orderly.started_add_pool_le`).

Nothing of this holds when a response is not asked for or its share is
invalid. `aggregate` then fails, the session is dropped, and its members
are back in the pool with new commitments, the one with the invalid share
included; `start_session` prefers low identifiers, so it can be picked
again at once (`bad_share_restarts`).
-/

namespace Timechain

namespace Signing

variable {F : Frost}

/-- Sessions that all wait for somebody, and for different members outside
the pool, are at most as many as the members outside the pool. -/
theorem waiting_add_pool_le {α : Type} [DecidableEq α] {members pool : Finset α} {n : Nat}
    (waits : α → Nat → Prop) (hpool : pool ⊆ members)
    (hwaits : ∀ p i, waits p i → p ∈ members ∧ p ∉ pool)
    (hapart : ∀ p i j, waits p i → waits p j → i = j) (hsome : ∀ i < n, ∃ p, waits p i) :
    n + pool.card ≤ members.card := by
  have hsome' : ∀ i : Fin n, ∃ p, waits p i := fun i => hsome i i.isLt
  choose f hf using hsome'
  have hinj : Function.Injective f :=
    fun i j hij => Fin.ext (hapart (f i) i j (hf i) (hij ▸ hf j))
  have hdisj : Disjoint (Finset.univ.image f) pool := by
    rw [Finset.disjoint_left]
    intro p hp
    obtain ⟨i, -, rfl⟩ := Finset.mem_image.mp hp
    exact (hwaits _ _ (hf i)).2
  have hsub : Finset.univ.image f ∪ pool ⊆ members := by
    refine Finset.union_subset ?_ hpool
    intro p hp
    obtain ⟨i, -, rfl⟩ := Finset.mem_image.mp hp
    exact (hwaits _ _ (hf i)).1
  calc n + pool.card = (Finset.univ.image f).card + pool.card := by
        rw [Finset.card_image_of_injective _ hinj, Finset.card_univ, Fintype.card_fin]
    _ = (Finset.univ.image f ∪ pool).card := (Finset.card_union_of_disjoint hdisj).symm
    _ ≤ members.card := Finset.card_le_card hsub

namespace RoastSession

/-- Shares come from the session's own signers. -/
def Own (s : RoastSession F) : Prop :=
  ∀ p, s.signatureShares.get p ≠ none → s.commitments.get p ≠ none

theorem Own.subset {s : RoastSession F} (h : s.Own) :
    s.signatureShares.keySet ⊆ s.commitments.keySet :=
  fun p hp => StorageMap.mem_keySet.mpr (h p (StorageMap.mem_keySet.mp hp))

/-- A complete session has a share of every signer. -/
theorem Own.complete_iff {s : RoastSession F} (h : s.Own) :
    s.isComplete = true ↔ ∀ p, s.commitments.get p ≠ none → s.signatureShares.get p ≠ none := by
  rw [isComplete, beq_iff_eq, ← StorageMap.card_keySet, ← StorageMap.card_keySet]
  constructor
  · intro hcard p hp
    have heq := Finset.eq_of_subset_of_card_le h.subset hcard.le
    exact StorageMap.mem_keySet.mp (heq ▸ StorageMap.mem_keySet.mpr hp)
  · intro hall
    refine congrArg Finset.card (Finset.Subset.antisymm ?_ h.subset)
    exact fun p hp => StorageMap.mem_keySet.mpr (hall p (StorageMap.mem_keySet.mp hp))

end RoastSession

/-! ## The coordinator's books -/

namespace RoastCoordinator

/-- The coordinator waits for a share of `p` in session `i`. -/
def Pending (k : RoastCoordinator F) (p : Identifier) (i : Nat) : Prop :=
  ∃ session, k.sessions.get i = some session ∧ session.commitments.get p ≠ none ∧
    session.signatureShares.get p = none

/-- The state of a coordinator that has started `started` sessions, as long
as responses are asked for and valid. -/
structure Orderly (members : Finset Identifier)
    (Valid : StorageMap Identifier F.SigningCommitments → Identifier → F.SignatureShare → Prop)
    (started : Nat) (k : RoastCoordinator F) : Prop where
  sessionId : k.sessionId = started % 2 ^ 16
  opened : ∀ i, k.sessions.get i ≠ none ↔ i < started
  pool : ∀ p, k.commitments.get p ≠ none → p ∈ k.committed ∧ ∀ i, ¬ k.Pending p i
  committed : k.committed ⊆ members
  signers : ∀ i session, k.sessions.get i = some session → session.Own ∧
    session.commitments.len = k.threshold ∧
    ∀ p, session.commitments.get p ≠ none → p ∈ k.committed
  shares : ∀ i session p share, k.sessions.get i = some session →
    session.signatureShares.get p = some share → Valid session.commitments p share
  apart : ∀ p i j, k.Pending p i → k.Pending p j → i = j

namespace Orderly

variable {members : Finset Identifier}
  {Valid : StorageMap Identifier F.SigningCommitments → Identifier → F.SignatureShare → Prop}
  {started : Nat} {k : RoastCoordinator F}

theorem new (members : Finset Identifier)
    (Valid : StorageMap Identifier F.SigningCommitments → Identifier → F.SignatureShare → Prop)
    (threshold : Nat) : Orderly members Valid 0 (.new F threshold) where
  sessionId := rfl
  opened _ := ⟨fun h => absurd rfl h, fun h => absurd h (Nat.not_lt_zero _)⟩
  pool _ h := absurd rfl h
  committed := Finset.empty_subset _
  signers _ _ h := by cases h
  shares _ _ _ _ h := by cases h
  apart _ _ _ h := by
    obtain ⟨session, h, -⟩ := h
    cases h

theorem committed_of_pending (h : Orderly members Valid started k) {p : Identifier} {i : Nat}
    (hp : k.Pending p i) : p ∈ k.committed := by
  obtain ⟨session, hi, hc, -⟩ := hp
  exact (h.signers i session hi).2.2 p hc

/-- While no session is complete, all of them wait for members outside the
pool. -/
theorem started_add_pool_le (h : Orderly members Valid started k)
    (hopen : ∀ i session, k.sessions.get i = some session → session.isComplete = false) :
    started + k.commitments.len ≤ members.card := by
  rw [← StorageMap.card_keySet]
  refine waiting_add_pool_le k.Pending ?_ ?_ h.apart ?_
  · intro p hp
    exact h.committed (h.pool p (StorageMap.mem_keySet.mp hp)).1
  · intro p i hp
    refine ⟨h.committed (h.committed_of_pending hp), fun hpool => ?_⟩
    exact (h.pool p (StorageMap.mem_keySet.mp hpool)).2 i hp
  · intro i hi
    obtain ⟨session, hsession⟩ := Option.ne_none_iff_exists'.mp ((h.opened i).mpr hi)
    have hnot := (h.signers i session hsession).1.complete_iff.not.mp
      (Bool.eq_false_iff.mp (hopen i session hsession))
    push Not at hnot
    obtain ⟨p, hc, hs⟩ := hnot
    exact ⟨p, session, hsession, hc, hs⟩

theorem onCommit (h : Orderly members Valid started k) {p : Identifier} (hp : p ∈ members)
    (commitment : F.SigningCommitments) :
    Orderly members Valid started (k.onCommit p commitment) := by
  rw [RoastCoordinator.onCommit]
  split
  · exact h
  · next hnew =>
    refine ⟨h.sessionId, h.opened, ?_, ?_, ?_, h.shares, h.apart⟩
    · intro q hq
      rw [StorageMap.get_insert] at hq
      split at hq
      · next heq =>
        subst heq
        exact ⟨Finset.mem_insert_self _ _, fun i hi => hnew (h.committed_of_pending hi)⟩
      · exact ⟨Finset.mem_insert_of_mem (h.pool q hq).1, (h.pool q hq).2⟩
    · exact Finset.insert_subset hp h.committed
    · intro i session hi
      obtain ⟨hown, hlen, hmem⟩ := h.signers i session hi
      exact ⟨hown, hlen, fun q hq => Finset.mem_insert_of_mem (hmem q hq)⟩

/-- A response the coordinator waits for. -/
theorem onResponse_pending {p : Identifier} {response : RoastSignerResponse F}
    {session : RoastSession F} (hsession : k.sessions.get response.sessionId = some session)
    (hcommit : session.commitments.get p ≠ none) :
    k.onResponse p response = { k with
      commitments := k.commitments.insert p response.commitment
      sessions := k.sessions.insert response.sessionId { session with
        signatureShares := session.signatureShares.insert p response.signatureShare } } := by
  rw [RoastCoordinator.onResponse, hsession]
  dsimp only
  rw [RoastSession.onSignatureShare, if_pos (StorageMap.containsKey_iff.mpr hcommit)]

theorem onResponse (h : Orderly members Valid started k) {p : Identifier}
    {response : RoastSignerResponse F}
    (hasked : ∀ session, k.sessions.get response.sessionId = some session →
      session.commitments.get p ≠ none ∧ session.signatureShares.get p = none ∧
        Valid session.commitments p response.signatureShare) :
    Orderly members Valid started (k.onResponse p response) := by
  cases hsession : k.sessions.get response.sessionId with
  | none =>
      rw [RoastCoordinator.onResponse, hsession]
      exact h
  | some session =>
      obtain ⟨hcommit, hshare, hvalid⟩ := hasked session hsession
      obtain ⟨hown, hlen, hsigners⟩ := h.signers _ session hsession
      have hp : k.Pending p response.sessionId := ⟨session, hsession, hcommit, hshare⟩
      rw [onResponse_pending hsession hcommit]
      obtain ⟨k', hk'⟩ : ∃ k' : RoastCoordinator F, k' = { k with
        commitments := k.commitments.insert p response.commitment
        sessions := k.sessions.insert response.sessionId { session with
          signatureShares := session.signatureShares.insert p response.signatureShare } } := ⟨_, rfl⟩
      have hsess : ∀ {i session'}, k'.sessions.get i = some session' →
          (i ≠ response.sessionId ∧ k.sessions.get i = some session') ∨
          (i = response.sessionId ∧ session' = { session with
            signatureShares := session.signatureShares.insert p response.signatureShare }) := by
        intro i session' hi
        rw [hk', StorageMap.get_insert] at hi
        split at hi
        · next heq =>
          cases hi
          exact .inr ⟨heq, rfl⟩
        · next hne => exact .inl ⟨hne, hi⟩
      -- only `p` has stopped waiting
      have hpending : ∀ {q i}, k'.Pending q i →
          k.Pending q i ∧ (q = p → i ≠ response.sessionId) := by
        rintro q i ⟨session', hi, hc, hs⟩
        rcases hsess hi with ⟨hne, hold⟩ | ⟨rfl, rfl⟩
        · exact ⟨⟨session', hold, hc, hs⟩, fun _ => hne⟩
        · rw [StorageMap.get_insert] at hs
          split at hs
          · cases hs
          · next hne => exact ⟨⟨session, hsession, hc, hs⟩, fun heq => absurd heq hne⟩
      rw [← hk']
      refine ⟨by rw [hk']; exact h.sessionId, ?_, ?_, by rw [hk']; exact h.committed, ?_, ?_, ?_⟩
      · intro i
        rw [hk', StorageMap.get_insert, ← h.opened]
        split
        · next heq => simp [heq, hsession]
        · exact Iff.rfl
      · intro q hq
        by_cases heq : q = p
        · subst heq
          refine ⟨by rw [hk']; exact h.committed_of_pending hp, fun i hi => ?_⟩
          exact (hpending hi).2 rfl (h.apart _ _ _ (hpending hi).1 hp)
        · rw [hk', StorageMap.get_insert_of_ne _ _ heq] at hq
          obtain ⟨hmem, hfree⟩ := h.pool q hq
          exact ⟨by rw [hk']; exact hmem, fun i hi => hfree i (hpending hi).1⟩
      · intro i session' hi
        rw [hk']
        rcases hsess hi with ⟨-, hold⟩ | ⟨-, rfl⟩
        · exact h.signers i session' hold
        · refine ⟨fun q hq => ?_, hlen, hsigners⟩
          rw [StorageMap.get_insert] at hq
          split at hq
          · next heq => exact heq ▸ hcommit
          · exact hown q hq
      · intro i session' q share hi hq
        rcases hsess hi with ⟨-, hold⟩ | ⟨-, rfl⟩
        · exact h.shares i session' q share hold hq
        · rw [StorageMap.get_insert] at hq
          split at hq
          · next heq =>
            cases hq
            exact heq ▸ hvalid
          · exact h.shares _ session q share hsession hq
      · intro q i j hi hj
        exact h.apart q i j (hpending hi).1 (hpending hj).1

theorem start (h : Orderly members Valid started k) {request : RoastSignerRequest F}
    {k' : RoastCoordinator F} (hlt : started < 2 ^ 16) (hstart : k.Starts request k') :
    Orderly members Valid (started + 1) k' := by
  have hid : k.sessionId = started := h.sessionId.trans (Nat.mod_eq_of_lt hlt)
  have hk' := hstart.next
  have hsess : ∀ {i session}, k'.sessions.get i = some session →
      (i ≠ started ∧ k.sessions.get i = some session) ∨
      (i = started ∧ session = .new request.commitments) := by
    intro i session hi
    rw [hk', StorageMap.get_insert, hid] at hi
    split at hi
    · next heq =>
      cases hi
      exact .inr ⟨heq, rfl⟩
    · next hne => exact .inl ⟨hne, hi⟩
  have htaken : ∀ {p}, request.commitments.get p ≠ none → k.commitments.get p ≠ none := by
    intro p hp
    rcases hstart.split p with ⟨heq, -⟩ | ⟨hnone, -⟩
    · rwa [← heq]
    · exact absurd hnone hp
  have hpending : ∀ {p i}, k'.Pending p i →
      k.Pending p i ∨ (i = started ∧ request.commitments.get p ≠ none) := by
    rintro p i ⟨session, hi, hc, hs⟩
    rcases hsess hi with ⟨-, hold⟩ | ⟨rfl, rfl⟩
    · exact .inl ⟨session, hold, hc, hs⟩
    · exact .inr ⟨rfl, hc⟩
  refine ⟨?_, ?_, ?_, by rw [hk']; exact h.committed, ?_, ?_, ?_⟩
  · rw [hk', hid]
  · intro i
    rw [hk', StorageMap.get_insert, hid]
    split
    · next heq => simp [heq]
    · next hne =>
      rw [h.opened]
      omega
  · intro p hp
    rcases hstart.split p with ⟨-, hnone⟩ | ⟨hnone, heq⟩
    · exact absurd hnone hp
    · obtain ⟨hmem, hfree⟩ := h.pool p (heq ▸ hp)
      refine ⟨by rw [hk']; exact hmem, fun i hi => ?_⟩
      rcases hpending hi with hold | ⟨-, htook⟩
      · exact hfree i hold
      · exact htook hnone
  · intro i session hi
    rw [hk']
    rcases hsess hi with ⟨-, hold⟩ | ⟨-, rfl⟩
    · exact h.signers i session hold
    · exact ⟨fun p hp => absurd rfl hp, hstart.len, fun p hp => (h.pool p (htaken hp)).1⟩
  · intro i session p share hi hp
    rcases hsess hi with ⟨-, hold⟩ | ⟨-, rfl⟩
    · exact h.shares i session p share hold hp
    · cases hp
  · intro p i j hi hj
    rcases hpending hi with hi | ⟨rfl, hi⟩
    · rcases hpending hj with hj | ⟨rfl, hj⟩
      · exact h.apart p i j hi hj
      · exact absurd hi ((h.pool p (htaken hj)).2 i)
    · rcases hpending hj with hj | ⟨rfl, -⟩
      · exact absurd hj ((h.pool p (htaken hi)).2 j)
      · rfl

end Orderly

end RoastCoordinator

/-! ## Coordinators as part of a member -/

namespace Roast

/-- All sessions that `nextAction` leaves open still wait for shares. -/
theorem aggregate_eq_none {r : Roast F} {k k' : RoastCoordinator F}
    (h : r.aggregate k = (none, k'))
    (hsigns : ∀ data i session, r.signer.data = some data → k.sessions.get i = some session →
      session.isComplete = true →
      F.aggregate ⟨session.commitments, data⟩ session.signatureShares r.publicKeyPackage ≠ none)
    (hnodata : r.signer.data = none → ∀ i session, k.sessions.get i = some session →
      session.isComplete = false) :
    k' = k ∧ ∀ i session, k.sessions.get i = some session → session.isComplete = false := by
  rw [aggregate] at h
  split at h
  · next hdata =>
    obtain ⟨-, rfl⟩ := Prod.mk.injEq .. |>.mp h
    exact ⟨rfl, hnodata hdata⟩
  · next data hdata =>
    split at h
    · next hnone =>
      obtain ⟨-, rfl⟩ := Prod.mk.injEq .. |>.mp h
      exact ⟨rfl, fun i session => RoastCoordinator.aggregateSignature_eq_none hnone⟩
    · next session k₁ hsome =>
      obtain ⟨i, hi, hcomplete, -⟩ := RoastCoordinator.aggregateSignature_eq_some hsome
      have hfailed := Option.map_eq_none_iff.mp (Prod.mk.injEq .. |>.mp h).1
      exact absurd hfailed (hsigns data i session hdata hi hcomplete)

/-- The coordinator's books are in order, and it has not started more
sessions than it may. -/
structure Steady (members : Finset Identifier)
    (Valid : StorageMap Identifier F.SigningCommitments → Identifier → F.SignatureShare → Prop)
    (threshold : Nat) (r : Roast F) : Prop where
  orderly : ∀ k, r.coordinator = some k →
    k.threshold = threshold ∧ k.Orderly members Valid r.started
  bound : r.started + threshold ≤ members.card + 1

variable {members : Finset Identifier}
  {Valid : StorageMap Identifier F.SigningCommitments → Identifier → F.SignatureShare → Prop}
  {threshold : Nat} {r r' : Roast F}

theorem Steady.new (hle : threshold ≤ members.card) (id : Identifier) (keyPackage : F.KeyPackage)
    (publicKeyPackage : F.PublicKeyPackage) (coordinators : List Identifier) :
    Steady members Valid threshold (.new id threshold keyPackage publicKeyPackage coordinators) where
  orderly k hk := by
    dsimp only [Roast.new] at hk ⊢
    split at hk
    · cases hk
      exact ⟨rfl, .new members Valid threshold⟩
    · cases hk
  bound := by
    change 0 + threshold ≤ members.card + 1
    omega

/-- Nothing changes for the coordinator. -/
theorem Steady.of_eq (h : Steady members Valid threshold r) (hc : r'.coordinator = r.coordinator)
    (hs : r'.started = r.started) : Steady members Valid threshold r' where
  orderly k hk := by
    rw [hs]
    exact h.orderly k (hc ▸ hk)
  bound := hs ▸ h.bound

theorem Steady.onMessage (h : Steady members Valid threshold r) {p : Identifier}
    (hp : p ∈ members) {msg : RoastMessage F}
    (hasked : ∀ response k session, msg = .signature response → r.coordinator = some k →
      k.sessions.get response.sessionId = some session →
      session.commitments.get p ≠ none ∧ session.signatureShares.get p = none ∧
        Valid session.commitments p response.signatureShare) :
    Steady members Valid threshold (r.onMessage p msg) := by
  cases msg with
  | commit commitment =>
      refine ⟨fun k hk => ?_, h.bound⟩
      obtain ⟨k₀, hk₀, rfl⟩ := Option.map_eq_some_iff.mp hk
      obtain ⟨ht, horderly⟩ := h.orderly k₀ hk₀
      refine ⟨?_, horderly.onCommit hp commitment⟩
      rw [RoastCoordinator.onCommit]
      split <;> exact ht
  | sign request => exact h.of_eq rfl rfl
  | signature response =>
      refine ⟨fun k hk => ?_, h.bound⟩
      obtain ⟨k₀, hk₀, rfl⟩ := Option.map_eq_some_iff.mp hk
      obtain ⟨ht, horderly⟩ := h.orderly k₀ hk₀
      refine ⟨?_, horderly.onResponse fun session => hasked response k₀ session rfl hk₀⟩
      rw [RoastCoordinator.onResponse]
      split <;> exact ht

/-- A coordinator that has nothing to do stays as it is. -/
theorem Waits.eq_of_open {o : Option (RoastCoordinator F)} (hwaits : r.Waits o)
    (hopen : ∀ k k', r.coordinator = some k → r.aggregate k = (none, k') → k' = k ∧
      ∀ i session, k.sessions.get i = some session → session.isComplete = false) :
    o = r.coordinator := by
  cases hwaits with
  | signer hnone => exact hnone.symm
  | coordinator hk hagg _ => rw [(hopen _ _ hk hagg).1, hk]

theorem Steady.acts (h : Steady members Valid threshold r) (hpos : 1 ≤ threshold)
    (hmembers : members.card < 2 ^ 16) {nonces : F.SigningNonces} {a : Option (RoastAction F)}
    (hopen : ∀ k k', r.coordinator = some k → r.aggregate k = (none, k') → k' = k ∧
      ∀ i session, k.sessions.get i = some session → session.isComplete = false)
    (hacts : r.Acts nonces a r') : Steady members Valid threshold r' := by
  cases hacts with
  | complete => exact ⟨fun k hk => (Option.some_ne_none k hk.symm).elim, h.bound⟩
  | @start k k' k'' request hk hagg hstart =>
      obtain ⟨rfl, hwaiting⟩ := hopen k k' hk hagg
      obtain ⟨ht, horderly⟩ := h.orderly k' hk
      have hle := horderly.started_add_pool_le hwaiting
      have henough := hstart.enough
      refine ⟨fun k₁ hk₁ => ?_, ?_⟩
      · cases hk₁
        refine ⟨?_, horderly.start (by omega) hstart⟩
        rw [hstart.next]
        exact ht
      · change r.started + 1 + threshold ≤ members.card + 1
        omega
  | commit hwaits hc => exact h.of_eq (hwaits.eq_of_open hopen) rfl
  | reply hwaits hnil hm => exact h.of_eq (hwaits.eq_of_open hopen) rfl
  | idle hwaits hnil hm => exact h.of_eq (hwaits.eq_of_open hopen) rfl

end Roast

/-! ## Runs of a coordinator -/

section Runs

variable (members : Finset Identifier)
  (Valid : SigningPackage F.SigningCommitments → Identifier → F.SignatureShare → Prop)

/-- A member's response to a session that is open comes from a signer of that
session that has not answered yet, and its share is valid. -/
def Answered (data : List UInt8) (t : Trace F) (peer : Identifier)
    (response : RoastSignerResponse F) : Prop :=
  ∀ k session, t.roast.coordinator = some k →
    k.sessions.get response.sessionId = some session →
    session.commitments.get peer ≠ none ∧ session.signatureShares.get peer = none ∧
      Valid ⟨session.commitments, data⟩ peer response.signatureShare

/-- Messages come from members, responses are `Answered`, and the data is
set once. -/
def Answering (data : List UInt8) (t : Trace F) : RoastCall F → Prop
  | .setData _ => False
  | .onMessage peer (.signature response) =>
      peer ∈ members ∧ Answered Valid data t peer response
  | .onMessage peer _ => peer ∈ members
  | .nextAction _ => True

/-- `aggregate` fails exactly if a share of the session is invalid. -/
def AggregatesValid (publicKeyPackage : F.PublicKeyPackage) : Prop :=
  ∀ package shares, (∀ p, shares.get p ≠ none ↔ package.signingCommitments.get p ≠ none) →
    (F.aggregate package shares publicKeyPackage = none ↔
      ∃ p share, shares.get p = some share ∧ ¬ Valid package p share)

variable {members Valid}

theorem Answering.onMessage {data : List UInt8} {t : Trace F} {peer : Identifier}
    {msg : RoastMessage F} (h : Answering members Valid data t (.onMessage peer msg)) :
    peer ∈ members ∧
      ∀ response, msg = .signature response → Answered Valid data t peer response := by
  cases msg with
  | commit _ => exact ⟨h, fun _ heq => by cases heq⟩
  | sign _ => exact ⟨h, fun _ heq => by cases heq⟩
  | signature response =>
      refine ⟨h.1, fun _ heq => ?_⟩
      cases heq
      exact h.2

/-- What a run of a coordinator keeps. -/
structure Trace.Bounded (members : Finset Identifier)
    (Valid : SigningPackage F.SigningCommitments → Identifier → F.SignatureShare → Prop)
    (threshold : Nat) (publicKeyPackage : F.PublicKeyPackage) (data : List UInt8) (t : Trace F) :
    Prop where
  steady : t.roast.Steady members (fun commitments => Valid ⟨commitments, data⟩) threshold
  data : t.roast.signer.data = some data
  publicKeyPackage : t.roast.publicKeyPackage = publicKeyPackage

/-- A coordinator that does not finish has no complete session: the shares
of such a session would be valid, and `aggregate` would succeed. -/
theorem Trace.Bounded.waiting {threshold : Nat} {publicKeyPackage : F.PublicKeyPackage}
    {data : List UInt8} {t : Trace F} (hagg : AggregatesValid Valid publicKeyPackage)
    (h : t.Bounded members Valid threshold publicKeyPackage data) {k k' : RoastCoordinator F}
    (hk : t.roast.coordinator = some k) (hnone : t.roast.aggregate k = (none, k')) :
    k' = k ∧ ∀ i session, k.sessions.get i = some session → session.isComplete = false := by
  obtain ⟨-, horderly⟩ := h.steady.orderly k hk
  refine Roast.aggregate_eq_none hnone ?_ ?_
  · intro data' i session hdata hi hcomplete hfailed
    obtain rfl := Option.some.inj (h.data.symm.trans hdata)
    obtain ⟨hown, -, -⟩ := horderly.signers i session hi
    rw [h.publicKeyPackage] at hfailed
    obtain ⟨p, share, hshare, hinvalid⟩ := (hagg _ _ fun p =>
      ⟨hown p, hown.complete_iff.mp hcomplete p⟩).mp hfailed
    exact hinvalid (horderly.shares i session p share hi hshare)
  · intro hdata
    rw [h.data] at hdata
    cases hdata

theorem Trace.Bounded.step {threshold : Nat} {publicKeyPackage : F.PublicKeyPackage}
    {data : List UInt8} {t t' : Trace F} {call : RoastCall F} (hpos : 1 ≤ threshold)
    (hmembers : members.card < 2 ^ 16) (hagg : AggregatesValid Valid publicKeyPackage)
    (h : t.Bounded members Valid threshold publicKeyPackage data)
    (hok : Answering members Valid data t call) (hstep : t.step call = some t') :
    t'.Bounded members Valid threshold publicKeyPackage data := by
  have hframe : ∀ {r' : Roast F}, t.roast.Frame r' →
      r'.signer.data = some data ∧ r'.publicKeyPackage = publicKeyPackage :=
    fun hf => ⟨hf.data.trans h.data, hf.publicKeyPackage.trans h.publicKeyPackage⟩
  unfold Trace.step at hstep
  split at hstep
  · cases hstep
  · cases call with
    | setData _ => exact hok.elim
    | onMessage peer msg =>
        cases hstep
        obtain ⟨hpeer, hasked⟩ := hok.onMessage
        obtain ⟨hdata, hpub⟩ := hframe (t.roast.onMessage_frame peer msg)
        refine ⟨h.steady.onMessage hpeer ?_, hdata, hpub⟩
        intro response k session hmsg hk hsession
        exact hasked response hmsg k session hk hsession
    | nextAction nonces =>
        dsimp only at hstep
        split at hstep
        · next action r hact =>
          cases hstep
          have hacts := Roast.nextAction_ok hact
          obtain ⟨hdata, hpub⟩ := hframe hacts.frame
          exact ⟨h.steady.acts hpos hmembers (fun _ _ => h.waiting hagg) hacts, hdata, hpub⟩
        · next r hact =>
          cases hstep
          have hpanics := Roast.nextAction_error hact
          obtain ⟨hdata, hpub⟩ := hframe hpanics.frame
          cases hpanics with
          | message hwaits _ _ =>
              exact ⟨h.steady.of_eq (hwaits.eq_of_open fun _ _ => h.waiting hagg) rfl, hdata, hpub⟩

/-- **Sessions of a coordinator.** It starts at most `n - threshold + 1`, over
any run in which the responses to its open sessions come from signers that
have not answered yet, with valid shares. Members may stay silent or commit
as they like. -/
theorem run_started_le {threshold : Nat} {publicKeyPackage : F.PublicKeyPackage}
    {data : List UInt8} {id : Identifier} {keyPackage : F.KeyPackage}
    {coordinators : List Identifier} {calls : List (RoastCall F)} {t : Trace F}
    (hpos : 1 ≤ threshold) (hle : threshold ≤ members.card) (hmembers : members.card < 2 ^ 16)
    (hagg : AggregatesValid Valid publicKeyPackage)
    (hrun : Run Trace.step (Answering members Valid data)
      (.start ((Roast.new id threshold keyPackage publicKeyPackage coordinators).setData data))
      calls t) :
    t.roast.started ≤ members.card - threshold + 1 := by
  have hbounded : t.Bounded members Valid threshold publicKeyPackage data := by
    refine hrun.invariant (P := fun _ t => t.Bounded members Valid threshold publicKeyPackage data)
      ?_ ?_
    · exact ⟨(Roast.Steady.new hle id keyPackage publicKeyPackage coordinators).of_eq rfl rfl,
        rfl, rfl⟩
    · intro calls t call t' _ h hok hstep
      exact h.step hpos hmembers hagg hok hstep
  have hbound := hbounded.steady.bound
  omega

end Runs

/-! A shard of two with threshold 1: a coordinator that hears nothing starts
two sessions, which is the bound. One that hears from a member with invalid
shares starts as many as that member likes. -/

/-- In `toyFrost` a share is valid if it is the nonce committed to. -/
def toyValid (package : SigningPackage Nat) (p : Identifier) (share : Nat) : Prop :=
  package.signingCommitments.get p = some share

theorem toyFrost_aggregatesValid : AggregatesValid (F := toyFrost) toyValid () := by
  intro package shares hkeys
  have hall : ((package.signingCommitments.iter id).all fun e => shares.get e.1 == some e.2) = false
      ↔ ∃ p share, shares.get p = some share ∧ ¬ toyValid package p share := by
    rw [List.all_eq_false]
    constructor
    · rintro ⟨⟨p, commitment⟩, hmem, hne⟩
      rw [StorageMap.mem_iter] at hmem
      obtain ⟨share, hshare⟩ := Option.ne_none_iff_exists'.mp
        ((hkeys p).mpr (hmem ▸ Option.some_ne_none _))
      refine ⟨p, share, hshare, fun hvalid => hne ?_⟩
      rw [beq_iff_eq, hshare, ← hmem, hvalid]
    · rintro ⟨p, share, hshare, hinvalid⟩
      obtain ⟨commitment, hc⟩ := Option.ne_none_iff_exists'.mp
        ((hkeys p).mp (hshare ▸ Option.some_ne_none _))
      refine ⟨(p, commitment), StorageMap.mem_iter.mpr hc, fun heq => hinvalid ?_⟩
      rw [beq_iff_eq, hshare] at heq
      rw [toyValid, hc, heq]
  rw [← hall]
  dsimp only [toyFrost]
  split
  · next h => simp [h]
  · next h => simp [h]

/-- Coordinator `id` of the shard, with its data set. -/
def toyCoordinator (id : Identifier) : Trace toyFrost :=
  .start ((Roast.new id 1 id () [1, 2]).setData [7])

/-- Both members commit and then stay silent. -/
def silentCalls : List (RoastCall toyFrost) :=
  [.onMessage 2 (.commit 20), .nextAction 0, .onMessage 1 (.commit 10), .nextAction 0]

theorem silentCalls_run : Run Trace.step (Answering {1, 2} toyValid [7]) (toyCoordinator 1)
    silentCalls (Run.endState Trace.step (toyCoordinator 1) silentCalls) := by
  refine Run.to_endState ?_ (by decide)
  intro t call hcall
  simp only [silentCalls, List.mem_cons, List.not_mem_nil, or_false] at hcall
  rcases hcall with rfl | rfl | rfl | rfl <;> simp [Answering]

theorem run_started_le_silent :
    (Run.endState Trace.step (toyCoordinator 1) silentCalls).roast.started = 2 ∧
      (Run.endState Trace.step (toyCoordinator 1) silentCalls).roast.started
        ≤ ({1, 2} : Finset Identifier).card - 1 + 1 :=
  ⟨by decide, run_started_le (by decide) (by decide) (by decide) toyFrost_aggregatesValid
    silentCalls_run⟩

/-- Member 1 answers each request with the same invalid share. -/
def badShareCalls : List (RoastCall toyFrost) :=
  [.onMessage 1 (.commit 10), .nextAction 0, .onMessage 1 (.signature ⟨0, 99, 11⟩), .nextAction 0,
    .onMessage 1 (.signature ⟨1, 99, 12⟩), .nextAction 0]

/-- Coordinator 2 asks nobody but member 1, and starts three sessions where
two are allowed. -/
theorem bad_share_restarts :
    Run Trace.step (fun _ _ => True) (toyCoordinator 2) badShareCalls
        (Run.endState Trace.step (toyCoordinator 2) badShareCalls) ∧
      (∀ peer msg, RoastCall.onMessage peer msg ∈ badShareCalls → peer = 1) ∧
      (∀ a ∈ (Run.endState Trace.step (toyCoordinator 2) badShareCalls).sent, a.peers = [1]) ∧
      AggregatesValid (F := toyFrost) toyValid () ∧
      ({1, 2} : Finset Identifier).card - 1 + 1
        < (Run.endState Trace.step (toyCoordinator 2) badShareCalls).roast.started := by
  refine ⟨Run.to_endState (fun _ _ _ => trivial) (by decide), ?_, by decide,
    toyFrost_aggregatesValid, by decide⟩
  intro peer msg hmem
  simp only [badShareCalls, List.mem_cons, RoastCall.onMessage.injEq, reduceCtorEq,
    List.not_mem_nil, or_false, false_or] at hmem
  rcases hmem with ⟨rfl, -⟩ | ⟨rfl, -⟩ | ⟨rfl, -⟩ <;> rfl

end Signing

end Timechain
