import Mathlib.Algebra.Ring.Nat
import Mathlib.Data.Finset.Card
import Mathlib.Data.Multiset.Bind
import Timechain.ChainPallets

/-!
# The roster: what the three pallets are for

Members, elections and shards together keep a roster. An account is
registered or not and online or not; if it is online it waits in the
list of a network or has a seat in a shard; a shard is dissolved when
too many of its crew go offline. `Roster` is this and nothing else - no
heartbeats, no key generation, no storage order - over arbitrary types
of accounts, networks and shards.

Between registrations a roster moves by the five kinds of `Step`. Four
properties of rosters are shown to be kept, each by one lemma per kind:

- `Seated`: an account waits in at most one list, once, or has exactly
  the seat its crew lists it under, and all of it for one network;
- `Intact`: a shard serves a network unless it is offline, and a shard
  without a key has its whole crew online;
- `Quorate`: moreover the count of a shard is its online crew, at least
  its threshold;
- `Placed`: a registered online account waits or has a seat.

`Listed`, the fifth, is about who may be elected and needs none of the
others. That the pallets only ever make these steps is the subject of
`ChainRefine`.
-/

namespace Timechain

open Function (update)
open Relation (ReflTransGen)

@[ext] structure Roster (A N S : Type) where
  network : A → Option N
  registered : A → Bool
  online : A → Bool
  waiting : N → Multiset A
  seat : A → Option S
  crew : S → Finset A
  shardNetwork : S → Option N
  status : S → Option ShardStatus
  threshold : S → Option Nat
  /-- How many of the crew are thought to be online. -/
  count : S → Nat

namespace Roster

variable {A N S : Type} [DecidableEq A] [DecidableEq N] [DecidableEq S]

/-! ## Moves -/

def register (r : Roster A N S) (a : A) (n : N) : Roster A N S :=
  { r with
    network := update r.network a (some n)
    registered := update r.registered a true }

/-- An account that has a seat keeps its network until it loses it. -/
def unregister (r : Roster A N S) (a : A) : Roster A N S :=
  { r with
    registered := update r.registered a false
    network := if r.seat a = none then update r.network a none else r.network }

/-- A shard whose member comes back before it has a key is given up. -/
def goOnline (r : Roster A N S) (a : A) (n : N) : Roster A N S :=
  { r with
    online := update r.online a true
    waiting := if r.seat a = none then update r.waiting n (a ::ₘ r.waiting n) else r.waiting
    count :=
      match r.seat a with
      | some s => if r.status s = none then r.count
          else update r.count s (satSucc 16 (r.count s))
      | none => r.count
    status :=
      match r.seat a with
      | some s => if (r.status s).any ShardStatus.isPending then
          update r.status s (some .offline) else r.status
      | none => r.status }

/-- How many of `as` have a seat in `s`. -/
def absent (r : Roster A N S) (as : List A) (s : S) : Nat := as.countP fun a => r.seat a = some s

def leave (r : Roster A N S) (as : List A) (n : N) : Roster A N S :=
  { r with
    online := fun a => r.online a && a ∉ as
    waiting := update r.waiting n ((r.waiting n).filter fun a => a ∉ as)
    count := fun s => r.count s - r.absent as s }

/-- `s` does not survive `as` going offline. -/
def Falls (r : Roster A N S) (as : List A) (s : S) : Prop :=
  0 < r.absent as s ∧ ∃ status threshold, r.status s = some status ∧
    r.threshold s = some threshold ∧
      (status.isPending = true ∨ status = .online ∧ r.count s - r.absent as s < threshold)

/-- `a` loses its seat when `shards` are dissolved. -/
def Gone (r : Roster A N S) (shards : List S) (a : A) : Prop :=
  ∃ s ∈ shards, r.shardNetwork s ≠ none ∧ a ∈ r.crew s

instance (r : Roster A N S) (shards : List S) (a : A) : Decidable (r.Gone shards a) :=
  inferInstanceAs (Decidable (∃ s ∈ shards, _))

/-- The crews that were serving `n`. -/
def dissolved (r : Roster A N S) (shards : List S) (n : N) : Multiset A :=
  (shards : Multiset S).bind fun s => if r.shardNetwork s = some n then (r.crew s).val else 0

/-- Crews go back to the lists, as far as they are registered and online;
who has been unregistered meanwhile is forgotten. -/
def dissolve (r : Roster A N S) (shards : List S) : Roster A N S :=
  { r with
    network := fun a => if r.Gone shards a ∧ r.registered a = false then none else r.network a
    waiting := fun n => r.waiting n
      + (r.dissolved shards n).filter fun a => r.registered a && r.online a
    seat := fun a => if r.Gone shards a then none else r.seat a
    crew := fun s => if s ∈ shards ∧ r.shardNetwork s ≠ none then ∅ else r.crew s
    shardNetwork := fun s => if s ∈ shards then none else r.shardNetwork s
    status := fun s => if s ∈ shards then some .offline else r.status s
    threshold := fun s => if s ∈ shards then none else r.threshold s }

def elect (r : Roster A N S) (s : S) (n : N) (threshold : Nat) (as : List A) : Roster A N S :=
  { r with
    waiting := update r.waiting n (r.waiting n - (as : Multiset A))
    seat := fun a => if a ∈ as then some s else r.seat a
    crew := update r.crew s (r.crew s ∪ as.toFinset)
    shardNetwork := update r.shardNetwork s (some n)
    status := update r.status s (some .created)
    threshold := update r.threshold s (some threshold)
    count := update r.count s (as.length % 2 ^ 16) }

/-- Key generation makes progress. -/
def advance (r : Roster A N S) (s : S) (status : ShardStatus) : Roster A N S :=
  { r with status := update r.status s (some status) }

/-- What happens between registrations. `lists` relates an account to the
network it goes offline for, `fits` a threshold to the size of a crew. -/
inductive Step (lists : A → N → Prop) (fits : Nat → Nat → Prop) :
    Roster A N S → Roster A N S → Prop
  | online {r a n} : r.online a = false → r.network a = some n → Step lists fits r (r.goOnline a n)
  | offline {r as n fallen} : as.Nodup → (∀ a ∈ as, r.online a = true ∧ lists a n) →
      fallen.Nodup → (∀ s, s ∈ fallen ↔ r.Falls as s) →
      Step lists fits r ((r.leave as n).dissolve fallen)
  | dissolve {r shards} : shards.Nodup → Step lists fits r (r.dissolve shards)
  | elect {r s n threshold} {as : List A} : r.shardNetwork s = none →
      (as : Multiset A) ≤ r.waiting n →
      fits threshold as.length → Step lists fits r (r.elect s n threshold as)
  | advance {r s status} : (r.crew s).Nonempty → status ≠ .offline →
      (status.isPending = true → r.status s ≠ some .online) →
      Step lists fits r (r.advance s status)

variable {lists : A → N → Prop} {fits : Nat → Nat → Prop} {r r' : Roster A N S}

omit [DecidableEq A] [DecidableEq S] in
theorem mem_dissolved {shards : List S} {n : N} {a : A} :
    a ∈ r.dissolved shards n ↔ ∃ s ∈ shards, r.shardNetwork s = some n ∧ a ∈ r.crew s := by
  rw [dissolved, Multiset.mem_bind]
  refine exists_congr fun s => and_congr Iff.rfl ?_
  split
  · next h => simp [h]
  · next h => simp [h]

theorem mem_dissolve_waiting {shards : List S} {n : N} {a : A} :
    a ∈ (r.dissolve shards).waiting n ↔ a ∈ r.waiting n ∨
      (a ∈ r.dissolved shards n ∧ r.registered a = true ∧ r.online a = true) := by
  simp only [dissolve, Multiset.mem_add, Multiset.mem_filter, Bool.and_eq_true]

theorem of_mem_goOnline_waiting {a b : A} {n m : N} (hb : b ∈ (r.goOnline a n).waiting m) :
    b ∈ r.waiting m ∨ (b = a ∧ m = n ∧ r.seat a = none) := by
  simp only [goOnline] at hb
  split at hb
  · next hseat =>
      by_cases hm : m = n
      · subst hm
        rw [Function.update_self, Multiset.mem_cons] at hb
        exact hb.elim (fun hba => Or.inr ⟨hba, rfl, hseat⟩) Or.inl
      · rw [Function.update_of_ne hm] at hb
        exact Or.inl hb
  · exact Or.inl hb

theorem mem_leave_waiting {as : List A} {n m : N} {a : A} :
    a ∈ (r.leave as n).waiting m ↔ a ∈ r.waiting m ∧ (m = n → a ∉ as) := by
  simp only [leave]
  by_cases hm : m = n
  · subst hm
    rw [Function.update_self, Multiset.mem_filter]
    simp
  · rw [Function.update_of_ne hm]
    simp [hm]

/-- An account that was waiting is left waiting or elected. -/
theorem mem_elect_waiting {s : S} {n m : N} {threshold : Nat} {as : List A} {a : A}
    (h : a ∈ r.waiting m) (hno : ¬(m = n ∧ a ∈ as)) :
    a ∈ (r.elect s n threshold as).waiting m := by
  simp only [elect]
  by_cases hm : m = n
  · subst hm
    rw [Function.update_self, Multiset.mem_sub,
      Multiset.count_eq_zero_of_notMem (fun ha => hno ⟨rfl, Multiset.mem_coe.mp ha⟩)]
    exact Multiset.count_pos.mpr h
  · rwa [Function.update_of_ne hm]

theorem of_mem_elect_waiting {s : S} {n m : N} {threshold : Nat} {as : List A} {a : A}
    (h : a ∈ (r.elect s n threshold as).waiting m) : a ∈ r.waiting m := by
  simp only [elect] at h
  by_cases hm : m = n
  · subst hm
    rw [Function.update_self] at h
    exact Multiset.mem_of_le (Multiset.sub_le_self _ _) h
  · rwa [Function.update_of_ne hm] at h

omit [DecidableEq A] [DecidableEq N] [DecidableEq S] in
theorem gone_nil (a : A) : ¬r.Gone ([] : List S) a := by
  rintro ⟨s, hs, -⟩
  exact List.not_mem_nil hs

@[simp] theorem dissolve_nil (r : Roster A N S) : r.dissolve [] = r := by
  refine Roster.ext ?_ rfl rfl ?_ ?_ ?_ ?_ ?_ ?_ rfl
  · funext a
    simp only [dissolve, gone_nil, false_and, if_false]
  · funext n
    exact add_zero _
  · funext a
    simp only [dissolve, gone_nil, if_false]
  · funext s
    simp only [dissolve, List.not_mem_nil, false_and, if_false]
  all_goals
    funext s
    simp only [dissolve, List.not_mem_nil, if_false]

/-- Dissolving writes the status of its shards, whatever it was. -/
theorem dissolve_status (r : Roster A N S) {shards : List S} {status : S → Option ShardStatus}
    (h : ∀ s, s ∉ shards → status s = r.status s) :
    ({ r with status := status } : Roster A N S).dissolve shards = r.dissolve shards := by
  refine Roster.ext rfl rfl rfl rfl rfl rfl rfl ?_ rfl rfl
  funext s
  by_cases hs : s ∈ shards
  · simp only [dissolve, if_pos hs]
  · simp only [dissolve, if_neg hs, h s hs]

/-- A count is a `u16`. -/
theorem Step.count_lt (hstep : Step lists fits r r') (h : ∀ s, r.count s < 2 ^ 16) (s : S) :
    r'.count s < 2 ^ 16 := by
  cases hstep with
  | @online a n _ _ =>
      simp only [goOnline]
      cases r.seat a with
      | none => exact h s
      | some s' =>
          dsimp only
          split
          · exact h s
          · rw [Function.update_apply]
            split
            · exact Nat.lt_of_le_of_lt (satAdd_le_max ..) (maxVal_lt 16)
            · exact h s
  | offline _ _ _ _ => exact Nat.lt_of_le_of_lt (Nat.sub_le _ _) (h s)
  | dissolve _ => exact h s
  | elect _ _ _ =>
      simp only [Roster.elect, Function.update_apply]
      split
      · exact Nat.mod_lt _ (Nat.two_pow_pos 16)
      · exact h s
  | advance _ _ _ => exact h s

theorem count_lt_steps (hsteps : ReflTransGen (Step lists fits) r r')
    (h : ∀ s, r.count s < 2 ^ 16) : ∀ s, r'.count s < 2 ^ 16 := by
  induction hsteps with
  | refl => exact h
  | tail _ hstep ih => exact hstep.count_lt ih

/-! ## One place per account -/

/-- Every account has one place, at its `home`. -/
structure Seated (home : A → N) (r : Roster A N S) : Prop where
  seat_iff : ∀ {a s}, r.seat a = some s ↔ a ∈ r.crew s
  waiting_nodup : ∀ n, (r.waiting n).Nodup
  waiting_free : ∀ {n a}, a ∈ r.waiting n → r.seat a = none
  waiting_online : ∀ {n a}, a ∈ r.waiting n → r.online a = true
  waiting_home : ∀ {n a}, a ∈ r.waiting n → n = home a
  seat_home : ∀ {a s}, r.seat a = some s → r.shardNetwork s = some (home a)
  network_home : ∀ {a n}, r.network a = some n → n = home a

namespace Seated

variable {home : A → N}

omit [DecidableEq A] [DecidableEq N] [DecidableEq S] in
theorem crew_home (h : Seated home r) {a : A} {s : S} (ha : a ∈ r.crew s) :
    r.shardNetwork s = some (home a) := h.seat_home (h.seat_iff.mpr ha)

omit [DecidableEq A] [DecidableEq N] [DecidableEq S] in
theorem gone_iff (h : Seated home r) {shards : List S} {a : A} :
    r.Gone shards a ↔ ∃ s ∈ shards, r.seat a = some s := by
  refine exists_congr fun s => and_congr Iff.rfl ?_
  rw [h.seat_iff]
  exact ⟨And.right, fun ha => ⟨by rw [h.crew_home ha]; exact Option.some_ne_none _, ha⟩⟩

omit [DecidableEq A] [DecidableEq N] [DecidableEq S] in
/-- A shard that serves no network has no crew. -/
theorem crew_eq_empty (h : Seated home r) {s : S} (hs : r.shardNetwork s = none) :
    r.crew s = ∅ := by
  refine Finset.eq_empty_of_forall_notMem fun a ha => ?_
  have hnet := h.crew_home ha
  rw [hs] at hnet
  cases hnet

omit [DecidableEq N] [DecidableEq S] in
theorem register (h : Seated home r) {a : A} {n : N} (hwait : ∀ m, a ∈ r.waiting m → m = n)
    (hseat : ∀ {s m}, r.seat a = some s → r.shardNetwork s = some m → m = n) :
    Seated (update home a n) (r.register a n) where
  seat_iff := h.seat_iff
  waiting_nodup := h.waiting_nodup
  waiting_free := h.waiting_free
  waiting_online := h.waiting_online
  waiting_home {m b} hb := by
    by_cases hba : b = a
    · subst hba
      rw [Function.update_self]
      exact hwait m hb
    · rw [Function.update_of_ne hba]
      exact h.waiting_home hb
  seat_home {b s} hs := by
    by_cases hba : b = a
    · subst hba
      have hnet := h.seat_home hs
      rw [Function.update_self, ← hseat hs hnet]
      exact hnet
    · rw [Function.update_of_ne hba]
      exact h.seat_home hs
  network_home {b m} hb := by
    by_cases hba : b = a
    · subst hba
      simp only [Roster.register, Function.update_self, Option.some.injEq] at hb
      rw [Function.update_self, hb]
    · simp only [Roster.register, Function.update_of_ne hba] at hb
      rw [Function.update_of_ne hba]
      exact h.network_home hb

omit [DecidableEq N] [DecidableEq S] in
theorem unregister (h : Seated home r) (a : A) : Seated home (r.unregister a) where
  seat_iff := h.seat_iff
  waiting_nodup := h.waiting_nodup
  waiting_free := h.waiting_free
  waiting_online := h.waiting_online
  waiting_home := h.waiting_home
  seat_home := h.seat_home
  network_home {b m} hb := by
    simp only [Roster.unregister] at hb
    split at hb
    · by_cases hba : b = a
      · subst hba
        rw [Function.update_self] at hb
        cases hb
      · rw [Function.update_of_ne hba] at hb
        exact h.network_home hb
    · exact h.network_home hb

theorem goOnline (h : Seated home r) {a : A} {n : N} (hoff : r.online a = false)
    (hnet : r.network a = some n) : Seated home (r.goOnline a n) where
  seat_iff := h.seat_iff
  waiting_nodup m := by
    have hfree : a ∉ r.waiting n := fun ha => by
      rw [h.waiting_online ha] at hoff
      cases hoff
    simp only [Roster.goOnline]
    split
    · by_cases hm : m = n
      · subst hm
        rw [Function.update_self]
        exact Multiset.nodup_cons.mpr ⟨hfree, h.waiting_nodup m⟩
      · rw [Function.update_of_ne hm]
        exact h.waiting_nodup m
    · exact h.waiting_nodup m
  waiting_free {m b} hb := by
    rcases of_mem_goOnline_waiting hb with hb | ⟨rfl, -, hseat⟩
    · exact h.waiting_free hb
    · exact hseat
  waiting_online {m b} hb := by
    simp only [Roster.goOnline]
    by_cases hba : b = a
    · subst hba
      rw [Function.update_self]
    · rw [Function.update_of_ne hba]
      rcases of_mem_goOnline_waiting hb with hb | ⟨rfl, -⟩
      · exact h.waiting_online hb
      · exact absurd rfl hba
  waiting_home {m b} hb := by
    rcases of_mem_goOnline_waiting hb with hb | ⟨rfl, rfl, -⟩
    · exact h.waiting_home hb
    · exact h.network_home hnet
  seat_home := h.seat_home
  network_home := h.network_home

theorem leave (h : Seated home r) {as : List A} {n : N} (hlists : ∀ a ∈ as, n = home a) :
    Seated home (r.leave as n) where
  seat_iff := h.seat_iff
  waiting_nodup m := by
    simp only [Roster.leave]
    by_cases hm : m = n
    · subst hm
      rw [Function.update_self]
      exact (h.waiting_nodup m).filter _
    · rw [Function.update_of_ne hm]
      exact h.waiting_nodup m
  waiting_free hb := h.waiting_free (mem_leave_waiting.mp hb).1
  waiting_online {m b} hb := by
    obtain ⟨hb, hout⟩ := mem_leave_waiting.mp hb
    have hnot : b ∉ as := fun hmem =>
      hout ((h.waiting_home hb).trans (hlists b hmem).symm) hmem
    simp only [Roster.leave, h.waiting_online hb, hnot, not_false_iff, decide_true, Bool.and_self]
  waiting_home hb := h.waiting_home (mem_leave_waiting.mp hb).1
  seat_home := h.seat_home
  network_home := h.network_home

omit [DecidableEq A] [DecidableEq S] in
theorem dissolved_nodup (h : Seated home r) {shards : List S} (hshards : shards.Nodup) (n : N) :
    (r.dissolved shards n).Nodup := by
  rw [dissolved, Multiset.nodup_bind]
  refine ⟨fun s _ => ?_, shards, rfl, ?_⟩
  · split
    · exact (r.crew s).nodup
    · exact Multiset.nodup_zero
  · -- Crews of different shards share nobody: a seat is in one shard.
    refine hshards.imp fun {s s'} hne => Multiset.disjoint_left.mpr fun {a} ha ha' => hne ?_
    dsimp only at ha
    split at ha
    · split at ha'
      · exact Option.some.inj ((h.seat_iff.mpr ha).symm.trans (h.seat_iff.mpr ha'))
      · exact absurd ha' (Multiset.notMem_zero a)
    · exact absurd ha (Multiset.notMem_zero a)

theorem dissolve (h : Seated home r) {shards : List S} (hshards : shards.Nodup) :
    Seated home (r.dissolve shards) where
  seat_iff {a s} := by
    simp only [Roster.dissolve]
    by_cases hgone : r.Gone shards a
    · rw [if_pos hgone]
      obtain ⟨s', hs', hseat⟩ := h.gone_iff.mp hgone
      refine ⟨fun hno => (Option.some_ne_none _ hno.symm).elim, fun ha => ?_⟩
      split at ha
      · exact absurd ha (Finset.notMem_empty a)
      · next hstay =>
          obtain rfl : s' = s :=
            Option.some.inj (hseat.symm.trans (h.seat_iff.mpr ha))
          exact absurd ⟨hs', by rw [h.crew_home ha]; exact Option.some_ne_none _⟩ hstay
    · rw [if_neg hgone, h.seat_iff]
      split
      · next hs =>
          refine ⟨fun ha => absurd ⟨s, hs.1, hs.2, ha⟩ hgone, fun ha => ?_⟩
          exact absurd ha (Finset.notMem_empty a)
      · exact Iff.rfl
  waiting_nodup n := by
    refine Multiset.nodup_add.mpr
      ⟨h.waiting_nodup n, (h.dissolved_nodup hshards n).filter _, ?_⟩
    refine Multiset.disjoint_left.mpr fun {a} ha ha' => ?_
    obtain ⟨s, -, -, hcrew⟩ := mem_dissolved.mp (Multiset.mem_of_mem_filter ha')
    have hseat := h.seat_iff.mpr hcrew
    rw [h.waiting_free ha] at hseat
    cases hseat
  waiting_free {n a} ha := by
    simp only [Roster.dissolve]
    rcases mem_dissolve_waiting.mp ha with ha | ⟨ha, -⟩
    · rw [h.waiting_free ha, ite_self]
    · obtain ⟨s, hs, hnet, hcrew⟩ := mem_dissolved.mp ha
      rw [if_pos ⟨s, hs, by rw [hnet]; exact Option.some_ne_none _, hcrew⟩]
  waiting_online {n a} ha := by
    rcases mem_dissolve_waiting.mp ha with ha | ⟨-, -, ha⟩
    · exact h.waiting_online ha
    · exact ha
  waiting_home {n a} ha := by
    rcases mem_dissolve_waiting.mp ha with ha | ⟨ha, -⟩
    · exact h.waiting_home ha
    · obtain ⟨s, -, hnet, hcrew⟩ := mem_dissolved.mp ha
      exact Option.some.inj (hnet.symm.trans (h.crew_home hcrew))
  seat_home {a s} hs := by
    simp only [Roster.dissolve] at hs ⊢
    split at hs
    · cases hs
    · next hstay =>
        rw [if_neg fun hmem => hstay (h.gone_iff.mpr ⟨s, hmem, hs⟩)]
        exact h.seat_home hs
  network_home {a n} hn := by
    simp only [Roster.dissolve] at hn
    split at hn
    · cases hn
    · exact h.network_home hn

theorem elect (h : Seated home r) {s : S} {n : N} {threshold : Nat} {as : List A}
    (hnew : r.shardNetwork s = none) (has : (as : Multiset A) ≤ r.waiting n) :
    Seated home (r.elect s n threshold as) := by
  have hwait : ∀ {a}, a ∈ as → a ∈ r.waiting n := fun ha =>
    Multiset.mem_of_le has (Multiset.mem_coe.mpr ha)
  have hempty := h.crew_eq_empty hnew
  -- Nobody has the new seat before the election.
  have hfree : ∀ a, r.seat a ≠ some s := fun a ha => by
    have ha := h.seat_iff.mp ha
    rw [hempty] at ha
    exact Finset.notMem_empty a ha
  constructor
  case seat_iff =>
    intro a s'
    simp only [Roster.elect]
    by_cases hs : s' = s
    · subst hs
      rw [Function.update_self, hempty, Finset.empty_union, List.mem_toFinset]
      split
      · next ha => exact ⟨fun _ => ha, fun _ => rfl⟩
      · next ha => exact ⟨fun hseat => absurd hseat (hfree a), fun hmem => absurd hmem ha⟩
    · rw [Function.update_of_ne hs, ← h.seat_iff]
      split
      · next ha =>
          rw [h.waiting_free (hwait ha)]
          exact ⟨fun heq => absurd (Option.some.inj heq).symm hs,
            fun hno => (Option.some_ne_none _ hno.symm).elim⟩
      · exact Iff.rfl
  case waiting_nodup =>
    intro m
    simp only [Roster.elect]
    by_cases hm : m = n
    · subst hm
      rw [Function.update_self]
      exact Multiset.nodup_of_le (Multiset.sub_le_self _ _) (h.waiting_nodup m)
    · rw [Function.update_of_ne hm]
      exact h.waiting_nodup m
  case waiting_free =>
    intro m a ha
    have hold := of_mem_elect_waiting ha
    simp only [Roster.elect] at ha ⊢
    rw [if_neg, h.waiting_free hold]
    intro hmem
    -- An elected account has left the only list it was in.
    obtain rfl : m = n := (h.waiting_home hold).trans (h.waiting_home (hwait hmem)).symm
    rw [Function.update_self, Multiset.mem_sub, Multiset.count_eq_one_of_mem
      (h.waiting_nodup m) hold] at ha
    have := Multiset.count_pos.mpr (Multiset.mem_coe.mpr hmem)
    omega
  case waiting_online => exact fun ha => h.waiting_online (of_mem_elect_waiting ha)
  case waiting_home => exact fun ha => h.waiting_home (of_mem_elect_waiting ha)
  case seat_home =>
    intro a s' hs'
    simp only [Roster.elect] at hs' ⊢
    split at hs'
    · next ha =>
        obtain rfl := Option.some.inj hs'
        rw [Function.update_self, h.waiting_home (hwait ha)]
    · have hne : s' ≠ s := by
        rintro rfl
        exact hfree a hs'
      rw [Function.update_of_ne hne]
      exact h.seat_home hs'
  case network_home => exact h.network_home

omit [DecidableEq A] [DecidableEq N] in
theorem advance (h : Seated home r) (s : S) (status : ShardStatus) :
    Seated home (r.advance s status) :=
  ⟨h.seat_iff, h.waiting_nodup, h.waiting_free, h.waiting_online, h.waiting_home, h.seat_home,
    h.network_home⟩

theorem step (hstep : Step lists fits r r') (hlists : ∀ a n, lists a n → n = home a)
    (h : Seated home r) : Seated home r' := by
  cases hstep with
  | online hoff hnet => exact h.goOnline hoff hnet
  | offline _ has hfallen _ => exact (h.leave fun a ha => hlists a _ (has a ha).2).dissolve hfallen
  | dissolve hshards => exact h.dissolve hshards
  | elect hnew has _ => exact h.elect hnew has
  | advance _ _ _ => exact h.advance _ _

theorem steps (hsteps : ReflTransGen (Step lists fits) r r')
    (hlists : ∀ a n, lists a n → n = home a) (h : Seated home r) : Seated home r' := by
  induction hsteps with
  | refl => exact h
  | tail _ hstep ih => exact step hstep hlists ih

end Seated

/-! ## Who may be elected -/

/-- Who waits is registered, and an account the members pallet knows is
registered or in a shard. -/
structure Listed (r : Roster A N S) : Prop where
  waiting_registered : ∀ {n a}, a ∈ r.waiting n → r.registered a = true
  registered_or_seated : ∀ {a}, r.network a ≠ none → r.registered a = true ∨ r.seat a ≠ none
  registered_known : ∀ {a}, r.registered a = true → r.network a ≠ none

namespace Listed

omit [DecidableEq N] [DecidableEq S] in
theorem register (h : Listed r) (a : A) (n : N) : Listed (r.register a n) where
  waiting_registered {m b} hb := by
    simp only [Roster.register]
    by_cases hba : b = a
    · rw [hba, Function.update_self]
    · rw [Function.update_of_ne hba]
      exact h.waiting_registered hb
  registered_or_seated {b} hb := by
    simp only [Roster.register] at hb ⊢
    by_cases hba : b = a
    · exact Or.inl (by rw [hba, Function.update_self])
    · rw [Function.update_of_ne hba] at hb ⊢
      exact h.registered_or_seated hb
  registered_known {b} hb := by
    simp only [Roster.register] at hb ⊢
    by_cases hba : b = a
    · rw [hba, Function.update_self]
      exact Option.some_ne_none n
    · rw [Function.update_of_ne hba] at hb ⊢
      exact h.registered_known hb

omit [DecidableEq N] [DecidableEq S] in
theorem unregister (h : Listed r) {a : A} (hfree : ∀ n, a ∉ r.waiting n) :
    Listed (r.unregister a) where
  waiting_registered {m b} hb := by
    simp only [Roster.unregister]
    have hba : b ≠ a := by
      rintro rfl
      exact hfree m hb
    rw [Function.update_of_ne hba]
    exact h.waiting_registered hb
  registered_or_seated {b} hb := by
    simp only [Roster.unregister] at hb ⊢
    by_cases hba : b = a
    · subst hba
      by_cases hseat : r.seat b = none
      · rw [if_pos hseat, Function.update_self] at hb
        exact absurd rfl hb
      · exact Or.inr hseat
    · rw [Function.update_of_ne hba]
      refine h.registered_or_seated ?_
      split at hb
      · rwa [Function.update_of_ne hba] at hb
      · exact hb
  registered_known {b} hb := by
    simp only [Roster.unregister] at hb ⊢
    have hba : b ≠ a := by
      rintro rfl
      rw [Function.update_self] at hb
      cases hb
    rw [Function.update_of_ne hba] at hb
    split
    · rw [Function.update_of_ne hba]
      exact h.registered_known hb
    · exact h.registered_known hb

theorem dissolve (h : Listed r) (shards : List S) : Listed (r.dissolve shards) where
  waiting_registered {n a} ha := by
    rcases mem_dissolve_waiting.mp ha with ha | ⟨-, ha, -⟩
    · exact h.waiting_registered ha
    · exact ha
  registered_or_seated {a} ha := by
    simp only [Roster.dissolve] at ha ⊢
    by_cases hgone : r.Gone shards a
    · left
      by_cases hreg : r.registered a = true
      · exact hreg
      · rw [if_pos ⟨hgone, Bool.eq_false_iff.mpr hreg⟩] at ha
        exact absurd rfl ha
    · rw [if_neg fun hno => hgone hno.1] at ha
      rw [if_neg hgone]
      exact h.registered_or_seated ha
  registered_known {a} ha := by
    simp only [Roster.dissolve] at ha ⊢
    rw [if_neg]
    · exact h.registered_known ha
    · rintro ⟨-, hno⟩
      rw [ha] at hno
      cases hno

theorem step (hstep : Step lists fits r r') (h : Listed r) : Listed r' := by
  cases hstep with
  | @online a n hoff hnet =>
      refine ⟨fun {m b} hb => ?_, h.registered_or_seated, h.registered_known⟩
      rcases of_mem_goOnline_waiting hb with hb | ⟨rfl, -, hseat⟩
      · exact h.waiting_registered hb
      · have hknown := h.registered_or_seated (hnet ▸ Option.some_ne_none n)
        exact hknown.resolve_right fun hno => hno hseat
  | @offline as n fallen _ _ _ _ =>
      have hleft : Listed (r.leave as n) :=
        ⟨fun hb => h.waiting_registered (mem_leave_waiting.mp hb).1, h.registered_or_seated,
          h.registered_known⟩
      exact hleft.dissolve fallen
  | dissolve _ => exact h.dissolve _
  | elect _ _ _ =>
      refine ⟨fun hb => h.waiting_registered (of_mem_elect_waiting hb), fun {a} ha => ?_,
        h.registered_known⟩
      refine (h.registered_or_seated ha).imp_right fun hseat => ?_
      simp only [Roster.elect]
      split
      · exact Option.some_ne_none _
      · exact hseat
  | advance _ _ _ =>
      exact ⟨h.waiting_registered, h.registered_or_seated, h.registered_known⟩

theorem steps (hsteps : ReflTransGen (Step lists fits) r r') (h : Listed r) : Listed r' := by
  induction hsteps with
  | refl => exact h
  | tail _ hstep ih => exact ih.step hstep

end Listed

/-! ## Nobody is stranded -/

/-- A registered online account waits or has a seat. -/
def Placed (home : A → N) (r : Roster A N S) : Prop :=
  ∀ a, r.registered a = true → r.online a = true → r.seat a ≠ none ∨ a ∈ r.waiting (home a)

namespace Placed

variable {home : A → N}

omit [DecidableEq N] [DecidableEq S] in
theorem register (h : Placed home r) {a : A} {n : N}
    (hplaced : r.online a = true → r.seat a ≠ none ∨ a ∈ r.waiting (home a)) :
    Placed home (r.register a n) := by
  intro b hreg hon
  by_cases hba : b = a
  · subst hba
    exact hplaced hon
  · simp only [Roster.register, Function.update_of_ne hba] at hreg
    exact h b hreg hon

omit [DecidableEq N] [DecidableEq S] in
theorem unregister (h : Placed home r) (a : A) : Placed home (r.unregister a) := by
  intro b hreg hon
  simp only [Roster.unregister] at hreg
  by_cases hba : b = a
  · rw [hba, Function.update_self] at hreg
    cases hreg
  · rw [Function.update_of_ne hba] at hreg
    exact h b hreg hon

theorem dissolve (h : Placed home r) (hseated : Seated home r) (shards : List S) :
    Placed home (r.dissolve shards) := by
  intro a hreg hon
  by_cases hgone : r.Gone shards a
  · obtain ⟨s, hs, -, hcrew⟩ := hgone
    exact Or.inr (mem_dissolve_waiting.mpr (Or.inr
      ⟨mem_dissolved.mpr ⟨s, hs, hseated.crew_home hcrew, hcrew⟩, hreg, hon⟩))
  · refine (h a hreg hon).imp (fun hseat => ?_) fun ha => mem_dissolve_waiting.mpr (Or.inl ha)
    simp only [Roster.dissolve, if_neg hgone]
    exact hseat

theorem leave (h : Placed home r) (as : List A) (n : N) : Placed home (r.leave as n) := by
  intro a hreg hon
  simp only [Roster.leave, Bool.and_eq_true, decide_eq_true_eq] at hon
  exact (h a hreg hon.1).imp_right fun ha => mem_leave_waiting.mpr ⟨ha, fun _ => hon.2⟩

theorem goOnline (h : Placed home r) (hseated : Seated home r) {a : A} {n : N}
    (hnet : r.network a = some n) : Placed home (r.goOnline a n) := by
  intro b hreg hon
  obtain rfl := hseated.network_home hnet
  simp only [Roster.goOnline] at hon ⊢
  by_cases hseat : r.seat a = none
  · rw [if_pos hseat]
    by_cases hba : b = a
    · subst hba
      rw [Function.update_self]
      exact Or.inr (Multiset.mem_cons_self ..)
    · rw [Function.update_of_ne hba] at hon
      refine (h b hreg hon).imp_right fun hb => ?_
      by_cases hhome : home b = home a
      · rw [hhome, Function.update_self]
        exact Multiset.mem_cons_of_mem (hhome ▸ hb)
      · rwa [Function.update_of_ne hhome]
  · rw [if_neg hseat]
    by_cases hba : b = a
    · exact Or.inl (hba ▸ hseat)
    · rw [Function.update_of_ne hba] at hon
      exact h b hreg hon

theorem elect (h : Placed home r) (s : S) (n : N) (threshold : Nat) (as : List A) :
    Placed home (r.elect s n threshold as) := by
  intro a hreg hon
  by_cases ha : a ∈ as
  · left
    simp only [Roster.elect, if_pos ha]
    exact Option.some_ne_none s
  · refine (h a hreg hon).imp (fun hseat => ?_) fun hmem => ?_
    · simp only [Roster.elect, if_neg ha]
      exact hseat
    · exact mem_elect_waiting hmem fun hno => ha hno.2

theorem step (hstep : Step lists fits r r') (hlists : ∀ a n, lists a n → n = home a)
    (hseated : Seated home r) (h : Placed home r) : Placed home r' := by
  cases hstep with
  | online _ hnet => exact h.goOnline hseated hnet
  | offline _ has _ _ =>
      exact (h.leave _ _).dissolve (hseated.leave fun a ha => hlists a _ (has a ha).2) _
  | dissolve _ => exact h.dissolve hseated _
  | elect _ _ _ => exact h.elect _ _ _ _
  | advance _ _ _ => exact h

theorem steps (hsteps : ReflTransGen (Step lists fits) r r')
    (hlists : ∀ a n, lists a n → n = home a) (hseated : Seated home r) (h : Placed home r) :
    Placed home r' := by
  induction hsteps with
  | refl => exact h
  | tail hbefore hstep ih => exact ih.step hstep hlists (hseated.steps hbefore hlists)

end Placed

/-! ## Shards that are up

A shard serves a network exactly as long as it is not offline, and until
it has a key its whole crew is online. -/

structure Intact (r : Roster A N S) : Prop where
  pending_online : ∀ {s status a}, r.status s = some status → status.isPending = true →
    a ∈ r.crew s → r.online a = true
  bounded : ∀ {s status}, r.status s = some status → status ≠ .offline → r.threshold s ≠ none
  serving : ∀ {s status}, r.status s = some status → status ≠ .offline → r.shardNetwork s ≠ none
  live : ∀ {s}, r.shardNetwork s ≠ none → ∃ status, r.status s = some status ∧ status ≠ .offline

omit [DecidableEq A] [DecidableEq N] in
theorem absent_eq_zero {as : List A} {s : S} :
    r.absent as s = 0 ↔ ∀ a ∈ as, r.seat a ≠ some s := by
  simp [absent, List.countP_eq_zero]

namespace Intact

variable {home : A → N}

omit [DecidableEq N] [DecidableEq S] in
theorem register (h : Intact r) (a : A) (n : N) : Intact (r.register a n) :=
  ⟨h.pending_online, h.bounded, h.serving, h.live⟩

omit [DecidableEq N] [DecidableEq S] in
theorem unregister (h : Intact r) (a : A) : Intact (r.unregister a) :=
  ⟨h.pending_online, h.bounded, h.serving, h.live⟩

/-- An offline account sits in no shard that is still without a key. -/
theorem goOnline_status (h : Intact r) (hseated : Seated home r) {a : A} {n : N}
    (hoff : r.online a = false) : (r.goOnline a n).status = r.status := by
  simp only [Roster.goOnline]
  cases hseat : r.seat a with
  | none => rfl
  | some s =>
      refine if_neg fun hpending => ?_
      obtain ⟨status, hstatus, hp⟩ := ShardStatus.exists_of_any hpending
      rw [h.pending_online hstatus hp (hseated.seat_iff.mp hseat)] at hoff
      cases hoff

theorem goOnline (h : Intact r) (hseated : Seated home r) {a : A} {n : N}
    (hoff : r.online a = false) : Intact (r.goOnline a n) := by
  have hstatus := h.goOnline_status hseated hoff (n := n)
  constructor
  case pending_online =>
    intro s status b hs hp hb
    rw [hstatus] at hs
    simp only [Roster.goOnline]
    by_cases hba : b = a
    · rw [hba, Function.update_self]
    · rw [Function.update_of_ne hba]
      exact h.pending_online hs hp hb
  case bounded =>
    intro s status hs hne
    rw [hstatus] at hs
    exact h.bounded hs hne
  case serving =>
    intro s status hs hne
    rw [hstatus] at hs
    exact h.serving hs hne
  case live =>
    intro s hs
    rw [hstatus]
    exact h.live hs

/-- It is enough to look at the shards that are not dissolved. -/
theorem dissolve {shards : List S}
    (hpending : ∀ {s status a}, s ∉ shards → r.status s = some status →
      status.isPending = true → a ∈ r.crew s → r.online a = true)
    (hup : ∀ {s status}, s ∉ shards → r.status s = some status → status ≠ .offline →
      r.threshold s ≠ none ∧ r.shardNetwork s ≠ none)
    (hlive : ∀ {s}, s ∉ shards → r.shardNetwork s ≠ none →
      ∃ status, r.status s = some status ∧ status ≠ .offline) :
    Intact (r.dissolve shards) := by
  -- A dissolved shard serves no network and is offline.
  have hstay : ∀ {s status}, (r.dissolve shards).status s = some status → status ≠ .offline →
      s ∉ shards ∧ r.status s = some status := by
    intro s status hs hne
    have hmem : s ∉ shards := by
      intro hmem
      simp only [Roster.dissolve, if_pos hmem, Option.some.injEq] at hs
      exact hne hs.symm
    simp only [Roster.dissolve, if_neg hmem] at hs
    exact ⟨hmem, hs⟩
  constructor
  case pending_online =>
    intro s status a hs hp ha
    obtain ⟨hmem, hs⟩ := hstay hs (by rintro rfl; cases hp)
    simp only [Roster.dissolve, hmem, false_and, if_false] at ha
    exact hpending hmem hs hp ha
  case bounded =>
    intro s status hs hne
    obtain ⟨hmem, hs⟩ := hstay hs hne
    simp only [Roster.dissolve, if_neg hmem]
    exact (hup hmem hs hne).1
  case serving =>
    intro s status hs hne
    obtain ⟨hmem, hs⟩ := hstay hs hne
    simp only [Roster.dissolve, if_neg hmem]
    exact (hup hmem hs hne).2
  case live =>
    intro s hs
    have hmem : s ∉ shards := by
      intro hmem
      simp only [Roster.dissolve, if_pos hmem] at hs
      exact hs rfl
    simp only [Roster.dissolve, if_neg hmem] at hs ⊢
    exact hlive hmem hs

omit [DecidableEq A] [DecidableEq N] in
/-- Without a key, a shard falls with the first member that leaves. -/
theorem absent_eq_zero_of_pending (h : Intact r) {as : List A} {s : S} {status : ShardStatus}
    (hs : r.status s = some status) (hp : status.isPending = true) (hstays : ¬r.Falls as s) :
    r.absent as s = 0 := by
  obtain ⟨t, ht⟩ := Option.ne_none_iff_exists'.mp (h.bounded hs (by rintro rfl; cases hp))
  refine Nat.eq_zero_of_not_pos fun hpos => hstays ?_
  exact ⟨hpos, status, t, hs, ht, Or.inl hp⟩

theorem offline (h : Intact r) (hseated : Seated home r) {as : List A} {n : N}
    {fallen : List S} (hfallen : ∀ s, s ∈ fallen ↔ r.Falls as s) :
    Intact ((r.leave as n).dissolve fallen) := by
  refine dissolve ?_ ?_ ?_
  · intro s status a hmem hs hp ha
    have hzero := h.absent_eq_zero_of_pending hs hp fun hno => hmem ((hfallen s).mpr hno)
    have hnot : a ∉ as := fun hin =>
      absent_eq_zero.mp hzero a hin (hseated.seat_iff.mpr ha)
    simp [Roster.leave, h.pending_online hs hp ha, hnot]
  · exact fun _ hs hne => ⟨h.bounded hs hne, h.serving hs hne⟩
  · exact fun _ hs => h.live hs

theorem elect (h : Intact r) (hseated : Seated home r) {s : S} {n : N} {threshold : Nat}
    {as : List A} (hnew : r.shardNetwork s = none) (has : (as : Multiset A) ≤ r.waiting n) :
    Intact (r.elect s n threshold as) := by
  -- Everything about the other shards is as before.
  have hother : ∀ {s'}, s' ≠ s → (r.elect s n threshold as).crew s' = r.crew s' ∧
      (r.elect s n threshold as).status s' = r.status s' ∧
      (r.elect s n threshold as).threshold s' = r.threshold s' ∧
      (r.elect s n threshold as).shardNetwork s' = r.shardNetwork s' := by
    intro s' hs'
    simp [Roster.elect, hs']
  constructor
  case pending_online =>
    intro s' status a hs' hp ha
    by_cases heq : s' = s
    · have hself : (r.elect s n threshold as).crew s = as.toFinset := by
        simp [Roster.elect, hseated.crew_eq_empty hnew]
      rw [heq, hself, List.mem_toFinset] at ha
      exact hseated.waiting_online (Multiset.mem_of_le has (Multiset.mem_coe.mpr ha))
    · obtain ⟨hc, hst, -⟩ := hother heq
      rw [hst] at hs'
      rw [hc] at ha
      exact h.pending_online hs' hp ha
  case bounded =>
    intro s' status hs' hne
    by_cases heq : s' = s
    · simp [Roster.elect, heq]
    · obtain ⟨-, hst, ht, -⟩ := hother heq
      rw [hst] at hs'
      rw [ht]
      exact h.bounded hs' hne
  case serving =>
    intro s' status hs' hne
    by_cases heq : s' = s
    · simp [Roster.elect, heq]
    · obtain ⟨-, hst, -, hn⟩ := hother heq
      rw [hst] at hs'
      rw [hn]
      exact h.serving hs' hne
  case live =>
    intro s' hs'
    by_cases heq : s' = s
    · exact ⟨.created, by simp [Roster.elect, heq], by decide⟩
    · obtain ⟨-, hst, -, hn⟩ := hother heq
      rw [hn] at hs'
      rw [hst]
      exact h.live hs'

omit [DecidableEq A] [DecidableEq N] [DecidableEq S] in
/-- Who has a crew is up. -/
theorem up_of_crew (h : Intact r) (hseated : Seated home r) {s : S} {a : A} (ha : a ∈ r.crew s) :
    r.shardNetwork s ≠ none ∧ ∃ status, r.status s = some status ∧ status ≠ .offline := by
  have hserving : r.shardNetwork s ≠ none := by
    rw [hseated.crew_home ha]
    exact Option.some_ne_none _
  exact ⟨hserving, h.live hserving⟩

omit [DecidableEq A] [DecidableEq N] in
theorem advance (h : Intact r) (hseated : Seated home r) {s : S} {status : ShardStatus}
    (hcrew : (r.crew s).Nonempty) (hne : status ≠ .offline)
    (hback : status.isPending = true → r.status s ≠ some .online) :
    Intact (r.advance s status) := by
  obtain ⟨a, ha⟩ := hcrew
  obtain ⟨hserving, old, hold, holdne⟩ := h.up_of_crew hseated ha
  have hself : (r.advance s status).status s = some status := Function.update_self ..
  have hother : ∀ {s'}, s' ≠ s → (r.advance s status).status s' = r.status s' :=
    fun hs' => Function.update_of_ne hs' ..
  constructor
  case pending_online =>
    intro s' st b hs' hp hb
    by_cases heq : s' = s
    · subst heq
      obtain rfl := Option.some.inj (hself.symm.trans hs')
      refine h.pending_online hold ?_ hb
      cases old with
      | created => rfl
      | committed => rfl
      | online => exact absurd hold (hback hp)
      | offline => exact absurd rfl holdne
    · rw [hother heq] at hs'
      exact h.pending_online hs' hp hb
  case bounded =>
    intro s' st hs' hst
    by_cases heq : s' = s
    · subst heq
      exact h.bounded hold holdne
    · rw [hother heq] at hs'
      exact h.bounded hs' hst
  case serving =>
    intro s' st hs' hst
    by_cases heq : s' = s
    · rw [heq]
      exact hserving
    · rw [hother heq] at hs'
      exact h.serving hs' hst
  case live =>
    intro s' hs'
    by_cases heq : s' = s
    · rw [heq]
      exact ⟨status, hself, hne⟩
    · rw [hother heq]
      exact h.live hs'

theorem step (hstep : Step lists fits r r') (hseated : Seated home r) (h : Intact r) :
    Intact r' := by
  cases hstep with
  | online hoff _ => exact h.goOnline hseated hoff
  | offline _ _ _ hfallen => exact h.offline hseated hfallen
  | dissolve _ =>
      exact dissolve (fun _ => h.pending_online)
        (fun _ hs hne => ⟨h.bounded hs hne, h.serving hs hne⟩) fun _ => h.live
  | elect hnew has _ => exact h.elect hseated hnew has
  | advance hcrew hne hback => exact h.advance hseated hcrew hne hback

theorem steps (hsteps : ReflTransGen (Step lists fits) r r')
    (hlists : ∀ a n, lists a n → n = home a) (hseated : Seated home r) (h : Intact r) :
    Intact r' := by
  induction hsteps with
  | refl => exact h
  | tail hbefore hstep ih => exact ih.step hstep (hseated.steps hbefore hlists)

end Intact

/-! ## Quorums -/

/-- The online part of a crew. -/
def present (r : Roster A N S) (s : S) : Finset A := (r.crew s).filter fun a => r.online a = true

/-- A shard that serves a network has the quorum it claims to have, and
all of its crew until it has a key. -/
structure Quorate (r : Roster A N S) : Prop where
  count_eq : ∀ {s}, r.shardNetwork s ≠ none → r.count s = (r.present s).card
  crew_lt : ∀ s, (r.crew s).card < 2 ^ 16
  pending_online : ∀ {s status a}, r.status s = some status → status.isPending = true →
    a ∈ r.crew s → r.online a = true
  quorum : ∀ {s status}, r.status s = some status → status ≠ .offline →
    ∃ threshold, r.threshold s = some threshold ∧ threshold ≤ r.count s
  serving : ∀ {s status}, r.status s = some status → status ≠ .offline → r.shardNetwork s ≠ none
  live : ∀ {s}, r.shardNetwork s ≠ none → ∃ status, r.status s = some status ∧ status ≠ .offline

omit [DecidableEq A] [DecidableEq N] [DecidableEq S] in
theorem present_congr {s : S} (hcrew : r'.crew s = r.crew s)
    (honline : ∀ a ∈ r.crew s, r'.online a = r.online a) : r'.present s = r.present s := by
  rw [present, present, hcrew]
  exact Finset.filter_congr fun a ha => by rw [honline a ha]

omit [DecidableEq N] in
theorem absent_eq_card {as : List A} (has : as.Nodup) (s : S) :
    r.absent as s = (as.toFinset.filter fun a => r.seat a = some s).card := by
  have hfilter : (as.filter fun a => r.seat a = some s).toFinset
      = as.toFinset.filter fun a => r.seat a = some s := by
    ext a
    simp
  rw [absent, List.countP_eq_length_filter, ← hfilter, List.toFinset_card_of_nodup (has.filter _)]

/-- Who leaves was there: the rest of the crew is what the count says. -/
theorem card_present_leave {home : A → N} (hseated : Seated home r) {as : List A} {n : N}
    (has : as.Nodup) (honline : ∀ a ∈ as, r.online a = true) (s : S) :
    ((r.leave as n).present s).card = (r.present s).card - r.absent as s := by
  have hsub : (as.toFinset.filter fun a => r.seat a = some s) ⊆ r.present s := by
    intro a ha
    obtain ⟨hmem, hseat⟩ := Finset.mem_filter.mp ha
    exact Finset.mem_filter.mpr
      ⟨hseated.seat_iff.mp hseat, honline a (List.mem_toFinset.mp hmem)⟩
  have heq : (r.leave as n).present s
      = r.present s \ as.toFinset.filter fun a => r.seat a = some s := by
    ext a
    simp only [present, leave, Finset.mem_filter, Finset.mem_sdiff, List.mem_toFinset,
      Bool.and_eq_true, decide_eq_true_eq, hseated.seat_iff]
    tauto
  rw [heq, Finset.card_sdiff_of_subset hsub, absent_eq_card has]

namespace Quorate

variable {home : A → N}

omit [DecidableEq A] [DecidableEq N] [DecidableEq S] in
theorem intact (h : Quorate r) : Intact r where
  pending_online := h.pending_online
  bounded hs hne := by
    obtain ⟨t, ht, -⟩ := h.quorum hs hne
    rw [ht]
    exact Option.some_ne_none t
  serving := h.serving
  live := h.live

omit [DecidableEq A] [DecidableEq N] [DecidableEq S] in
/-- What a quorum is on top of being intact. -/
theorem of_intact (h : Intact r)
    (hcount : ∀ {s}, r.shardNetwork s ≠ none → r.count s = (r.present s).card)
    (hcrew : ∀ s, (r.crew s).card < 2 ^ 16)
    (hquorum : ∀ {s status}, r.status s = some status → status ≠ .offline →
      ∃ threshold, r.threshold s = some threshold ∧ threshold ≤ r.count s) : Quorate r :=
  ⟨hcount, hcrew, h.pending_online, hquorum, h.serving, h.live⟩

omit [DecidableEq N] [DecidableEq S] in
theorem register (h : Quorate r) (a : A) (n : N) : Quorate (r.register a n) :=
  of_intact (h.intact.register a n) h.count_eq h.crew_lt h.quorum

omit [DecidableEq N] [DecidableEq S] in
theorem unregister (h : Quorate r) (a : A) : Quorate (r.unregister a) :=
  of_intact (h.intact.unregister a) h.count_eq h.crew_lt h.quorum

theorem goOnline (h : Quorate r) (hseated : Seated home r) {a : A} {n : N}
    (hoff : r.online a = false) : Quorate (r.goOnline a n) := by
  -- The count of the shard `a` sits in, if any, goes up by one.
  have hcount : ∀ {s}, r.shardNetwork s ≠ none → (r.goOnline a n).count s
      = ((r.goOnline a n).present s).card ∧ r.count s ≤ (r.goOnline a n).count s := by
    intro s hs
    by_cases hseat : r.seat a = some s
    · have ha : a ∈ r.crew s := hseated.seat_iff.mp hseat
      obtain ⟨status, hst, -⟩ := h.live hs
      have hpresent : (r.goOnline a n).present s = insert a (r.present s) := by
        ext b
        simp only [present, Roster.goOnline, Finset.mem_filter, Finset.mem_insert,
          Function.update_apply]
        by_cases hba : b = a
        · subst hba
          simp [ha]
        · simp [hba]
      have hnot : a ∉ r.present s := by
        intro hmem
        rw [(Finset.mem_filter.mp hmem).2] at hoff
        cases hoff
      have hlt : r.count s < maxVal 16 := by
        have hle : (insert a (r.present s)).card ≤ (r.crew s).card :=
          Finset.card_le_card (Finset.insert_subset ha (Finset.filter_subset _ _))
        have hcrew := h.crew_lt s
        rw [Finset.card_insert_of_notMem hnot, ← h.count_eq hs] at hle
        simp only [maxVal]
        omega
      have hnew : (r.goOnline a n).count s = r.count s + 1 := by
        simp only [Roster.goOnline, hseat]
        rw [if_neg (by rw [hst]; exact Option.some_ne_none _), Function.update_self,
          satSucc_of_lt hlt]
      rw [hnew, hpresent, Finset.card_insert_of_notMem hnot, ← h.count_eq hs]
      exact ⟨rfl, Nat.le_succ _⟩
    · have hold : (r.goOnline a n).count s = r.count s := by
        simp only [Roster.goOnline]
        cases hother : r.seat a with
        | none => rfl
        | some s' =>
            have hne : s ≠ s' := by
              rintro rfl
              exact hseat hother
            dsimp only
            split
            · rfl
            · rw [Function.update_of_ne hne]
      have hpresent : (r.goOnline a n).present s = r.present s := by
        refine present_congr rfl fun b hb => ?_
        have hba : b ≠ a := by
          rintro rfl
          exact hseat (hseated.seat_iff.mpr hb)
        simp only [Roster.goOnline, Function.update_of_ne hba]
      rw [hold, hpresent, ← h.count_eq hs]
      exact ⟨rfl, Nat.le_refl _⟩
  refine of_intact (h.intact.goOnline hseated hoff) (fun hs => (hcount hs).1) h.crew_lt ?_
  intro s status hs hne
  rw [h.intact.goOnline_status hseated hoff] at hs
  obtain ⟨t, ht, hle⟩ := h.quorum hs hne
  exact ⟨t, ht, hle.trans (hcount (h.serving hs hne)).2⟩

/-- Dissolving shards does not touch the quorum of the others. -/
theorem dissolve {shards : List S} (h : Intact (r.dissolve shards))
    (hcount : ∀ {s}, s ∉ shards → r.shardNetwork s ≠ none → r.count s = (r.present s).card)
    (hcrew : ∀ s, (r.crew s).card < 2 ^ 16)
    (hquorum : ∀ {s status}, s ∉ shards → r.status s = some status → status ≠ .offline →
      ∃ threshold, r.threshold s = some threshold ∧ threshold ≤ r.count s) :
    Quorate (r.dissolve shards) := by
  refine of_intact h ?_ ?_ ?_
  · intro s hs
    have hmem : s ∉ shards := by
      intro hmem
      simp only [Roster.dissolve, if_pos hmem] at hs
      exact hs rfl
    have hc : (r.dissolve shards).crew s = r.crew s := by
      simp [Roster.dissolve, hmem]
    simp only [Roster.dissolve, if_neg hmem] at hs
    rw [present_congr (r := r) hc fun _ _ => rfl, ← hcount hmem hs]
    rfl
  · intro s
    simp only [Roster.dissolve]
    split
    · exact Nat.two_pow_pos 16
    · exact hcrew s
  · intro s status hs hne
    have hmem : s ∉ shards := by
      intro hmem
      simp only [Roster.dissolve, if_pos hmem, Option.some.injEq] at hs
      exact hne hs.symm
    simp only [Roster.dissolve, if_neg hmem] at hs ⊢
    exact hquorum hmem hs hne

theorem offline (h : Quorate r) (hseated : Seated home r) {as : List A} {n : N}
    {fallen : List S} (has : as.Nodup) (honline : ∀ a ∈ as, r.online a = true)
    (hfallen : ∀ s, s ∈ fallen ↔ r.Falls as s) :
    Quorate ((r.leave as n).dissolve fallen) := by
  refine dissolve (h.intact.offline hseated hfallen) ?_ h.crew_lt ?_
  · intro s hmem hs
    rw [card_present_leave hseated has honline, ← h.count_eq hs]
    rfl
  · -- A shard that stays loses nobody while it has no key, and keeps its quorum.
    intro s status hmem hs hne
    obtain ⟨t, ht, hle⟩ := h.quorum hs hne
    rw [hfallen] at hmem
    refine ⟨t, ht, ?_⟩
    change t ≤ r.count s - r.absent as s
    by_cases hp : status.isPending = true
    · rwa [h.intact.absent_eq_zero_of_pending hs hp hmem]
    · cases status with
      | created => exact absurd rfl hp
      | committed => exact absurd rfl hp
      | online =>
          rcases Nat.eq_zero_or_pos (r.absent as s) with h0 | hpos
          · rwa [h0]
          · exact Nat.le_of_not_lt fun hlt =>
              hmem ⟨hpos, .online, t, hs, ht, Or.inr ⟨rfl, hlt⟩⟩
      | offline => exact absurd rfl hne

theorem elect (h : Quorate r) (hseated : Seated home r) {s : S} {n : N} {threshold : Nat}
    {as : List A} (hnew : r.shardNetwork s = none) (has : (as : Multiset A) ≤ r.waiting n)
    (hle : threshold ≤ as.length) (hlt : as.length < 2 ^ 16) :
    Quorate (r.elect s n threshold as) := by
  have honline : ∀ a ∈ as, r.online a = true := fun a ha =>
    hseated.waiting_online (Multiset.mem_of_le has (Multiset.mem_coe.mpr ha))
  have hnodup : as.Nodup :=
    Multiset.coe_nodup.mp (Multiset.nodup_of_le has (hseated.waiting_nodup n))
  have hself : (r.elect s n threshold as).crew s = as.toFinset := by
    simp [Roster.elect, hseated.crew_eq_empty hnew]
  have hpresent : ((r.elect s n threshold as).present s).card = as.length := by
    rw [present, hself, Finset.filter_true_of_mem, List.toFinset_card_of_nodup hnodup]
    exact fun a ha => honline a (List.mem_toFinset.mp ha)
  have hcount : (r.elect s n threshold as).count s = as.length := by
    simp only [Roster.elect, Function.update_self]
    exact Nat.mod_eq_of_lt hlt
  have hother : ∀ {s'}, s' ≠ s → (r.elect s n threshold as).crew s' = r.crew s' ∧
      (r.elect s n threshold as).status s' = r.status s' ∧
      (r.elect s n threshold as).threshold s' = r.threshold s' ∧
      (r.elect s n threshold as).shardNetwork s' = r.shardNetwork s' ∧
      (r.elect s n threshold as).count s' = r.count s' := by
    intro s' hs'
    simp [Roster.elect, hs']
  refine of_intact (h.intact.elect hseated hnew has) ?_ ?_ ?_
  · intro s' hs'
    by_cases heq : s' = s
    · rw [heq, hcount, hpresent]
    · obtain ⟨hc, -, -, hn, hk⟩ := hother heq
      rw [hn] at hs'
      rw [hk, present_congr (r := r) hc fun _ _ => rfl, h.count_eq hs']
  · intro s'
    by_cases heq : s' = s
    · rw [heq, hself, List.toFinset_card_of_nodup hnodup]
      exact hlt
    · rw [(hother heq).1]
      exact h.crew_lt s'
  · intro s' status hs' hne
    by_cases heq : s' = s
    · subst heq
      rw [hcount]
      exact ⟨threshold, by simp [Roster.elect], hle⟩
    · obtain ⟨-, hst, ht, -, hk⟩ := hother heq
      rw [hst] at hs'
      rw [ht, hk]
      exact h.quorum hs' hne

omit [DecidableEq A] [DecidableEq N] in
theorem advance (h : Quorate r) (hseated : Seated home r) {s : S} {status : ShardStatus}
    (hcrew : (r.crew s).Nonempty) (hne : status ≠ .offline)
    (hback : status.isPending = true → r.status s ≠ some .online) :
    Quorate (r.advance s status) := by
  refine of_intact (h.intact.advance hseated hcrew hne hback) h.count_eq h.crew_lt ?_
  intro s' st hs' hst
  by_cases heq : s' = s
  · subst heq
    obtain ⟨a, ha⟩ := hcrew
    obtain ⟨-, old, hold, holdne⟩ := h.intact.up_of_crew hseated ha
    exact h.quorum hold holdne
  · rw [show (r.advance s status).status s' = r.status s' from Function.update_of_ne heq ..] at hs'
    exact h.quorum hs' hst

theorem step (hstep : Step lists fits r r')
    (hfits : ∀ t k, fits t k → t ≤ k ∧ k < 2 ^ 16) (hseated : Seated home r) (h : Quorate r) :
    Quorate r' := by
  cases hstep with
  | online hoff _ => exact h.goOnline hseated hoff
  | offline has honline _ hfallen =>
      exact h.offline hseated has (fun a ha => (honline a ha).1) hfallen
  | dissolve hnodup =>
      have hintact : Intact (r.dissolve _) :=
        Intact.step (.dissolve hnodup : Step lists fits r _) hseated h.intact
      exact dissolve hintact (fun _ => h.count_eq) h.crew_lt fun _ => h.quorum
  | elect hnew has hsize =>
      obtain ⟨hle, hlt⟩ := hfits _ _ hsize
      exact h.elect hseated hnew has hle hlt
  | advance hcrew hne hback => exact h.advance hseated hcrew hne hback

theorem steps (hsteps : ReflTransGen (Step lists fits) r r')
    (hlists : ∀ a n, lists a n → n = home a) (hfits : ∀ t k, fits t k → t ≤ k ∧ k < 2 ^ 16)
    (hseated : Seated home r) (h : Quorate r) : Quorate r' := by
  induction hsteps with
  | refl => exact h
  | tail hbefore hstep ih => exact ih.step hstep hfits (hseated.steps hbefore hlists)

end Quorate

end Roster

end Timechain
