import Mathlib.Data.Finset.Card
import Mathlib.Data.List.Nodup
import Mathlib.Logic.Function.Basic

/-!
# The task board

What the scheduling half of the tasks pallet is for, without its
storage: tasks are created, wait in one queue per network, are placed on
a shard, go back to a queue when the shard leaves, and are finished. One
read task per network is *current*; it never waits in a queue.

A `Move` is one such change. Three things are parameters, because the
results below need different ones:

- `ok b n t` restricts who may be finished by an event of network `n`;
- `lossy` allows a queue to drop what is pushed (a full index does);
- `exempt` are the tasks whose result is withdrawn for a moment.

`Inv` holds along all moves. On top of it, `Placed` (an unfinished batch
task is somewhere) needs queues that do not drop, `Settled` (a finished
task is nowhere) needs that no waiting task is finished, and `Funded`
(a network has more tasks created than executed) needs that a placed
task is finished under the network of its shard.
-/

namespace Timechain

/-- What a task does: read events, or submit a batch. -/
inductive Job (B : Type) where
  | read
  | submit (batch : B)
  deriving DecidableEq

structure Board (N S T B : Type) where
  /-- Ids handed out so far. -/
  known : T → Prop
  job : T → Option (Job B)
  net : T → Option N
  queue : N → List T
  shard : T → Option S
  /-- The shards' own view of `shard`. -/
  held : S → T → Prop
  /-- The read task of a network. -/
  current : N → Option T
  done : T → Prop
  batchTask : B → Option T
  created : N → Nat
  executed : N → Nat

namespace Board

open Function (update update_apply)

variable {N S T B : Type}

/-! ## The invariant -/

structure Inv (home : S → N) (b : Board N S T B) : Prop where
  known_of_job : ∀ {t}, b.job t ≠ none → b.known t
  known_of_queue : ∀ {n t}, t ∈ b.queue n → b.known t
  known_of_shard : ∀ {t}, b.shard t ≠ none → b.known t
  known_of_done : ∀ {t}, b.done t → b.known t
  queue_nodup : ∀ n, (b.queue n).Nodup
  queue_unique : ∀ {n m t}, t ∈ b.queue n → t ∈ b.queue m → n = m
  queue_unplaced : ∀ {n t}, t ∈ b.queue n → b.shard t = none
  held_iff : ∀ {s t}, b.held s t ↔ b.shard t = some s
  current_job : ∀ {n t}, b.current n = some t → b.job t = some .read
  current_net : ∀ {n t}, b.current n = some t → b.net t = some n
  current_open : ∀ {n t}, b.current n = some t → ¬b.done t
  current_unqueued : ∀ {n m t}, b.current n = some t → t ∉ b.queue m
  net_of_job : ∀ {t}, b.job t ≠ none → b.net t ≠ none
  queue_net : ∀ {n m t}, t ∈ b.queue n → b.net t = some m → m = n
  shard_net : ∀ {s m t}, b.shard t = some s → b.net t = some m → m = home s
  linked : ∀ {a t}, b.batchTask a = some t → b.job t = some (.submit a)

namespace Inv

variable {home : S → N} {b : Board N S T B}

theorem current_known (h : Inv home b) {n : N} {t : T} (hc : b.current n = some t) : b.known t :=
  h.known_of_job (by rw [h.current_job hc]; exact Option.some_ne_none _)

theorem shard_known (h : Inv home b) {s : S} {t : T} (hs : b.shard t = some s) : b.known t :=
  h.known_of_shard (by rw [hs]; exact Option.some_ne_none _)

/-- A placed read task is current for the network of its shard or for none. -/
theorem current_ne (h : Inv home b) {s : S} {t : T} (hs : b.shard t = some s)
    (hc : b.current (home s) ≠ some t) (m : N) : b.current m ≠ some t := by
  intro hm
  rw [h.shard_net hs (h.current_net hm)] at hm
  exact hc hm

theorem linked_current_ne (h : Inv home b) {a : B} {t : T} (hl : b.batchTask a = some t) (m : N) :
    b.current m ≠ some t := by
  intro hm
  have hjob := (h.linked hl).symm.trans (h.current_job hm)
  cases hjob

theorem shard_unqueued (h : Inv home b) {s : S} {t : T} (hs : b.shard t = some s) (n : N) :
    t ∉ b.queue n := by
  intro hq
  rw [h.queue_unplaced hq] at hs
  cases hs

end Inv

/-! ## Queues -/

section Queue

variable [DecidableEq N]

/-- `q` are the queues after pushing `t` for `n`. -/
def Enqueued (lossy : Prop) (b : Board N S T B) (n : N) (t : T) (q : N → List T) : Prop :=
  q = update b.queue n (b.queue n ++ [t]) ∨ lossy ∧ q = b.queue

theorem Enqueued.mem {lossy : Prop} {b : Board N S T B} {n : N} {t : T} {q : N → List T}
    (h : Enqueued lossy b n t q) {m : N} {t' : T} (hq : t' ∈ q m) :
    (m = n ∧ t' = t) ∨ t' ∈ b.queue m := by
  rcases h with rfl | ⟨-, rfl⟩
  · by_cases hm : m = n
    · subst hm
      rw [Function.update_self, List.mem_append, List.mem_singleton] at hq
      rcases hq with hq | rfl
      · exact Or.inr hq
      · exact Or.inl ⟨rfl, rfl⟩
    · rw [Function.update_of_ne hm] at hq
      exact Or.inr hq
  · exact Or.inr hq

theorem Enqueued.mem_of_mem {lossy : Prop} {b : Board N S T B} {n : N} {t : T} {q : N → List T}
    (h : Enqueued lossy b n t q) {m : N} {t' : T} (hq : t' ∈ b.queue m) : t' ∈ q m := by
  rcases h with rfl | ⟨-, rfl⟩
  · by_cases hm : m = n
    · subst hm
      rw [Function.update_self]
      exact List.mem_append_left _ hq
    · rwa [Function.update_of_ne hm]
  · exact hq

theorem Enqueued.mem_self {lossy : Prop} {b : Board N S T B} {n : N} {t : T} {q : N → List T}
    (h : Enqueued lossy b n t q) (hl : ¬lossy) : t ∈ q n := by
  rcases h with rfl | ⟨hlossy, -⟩
  · rw [Function.update_self]
    exact List.mem_append_right _ (List.mem_singleton_self t)
  · exact absurd hlossy hl

variable {home : S → N} {b : Board N S T B}

/-- Push a task that waits nowhere, runs nowhere and is not current. -/
theorem Inv.enqueue (h : Inv home b) {lossy : Prop} {n : N} {t : T} {q : N → List T}
    (hk : b.known t) (hq : ∀ m, t ∉ b.queue m) (hs : b.shard t = none)
    (hc : ∀ m, b.current m ≠ some t) (hnet : ∀ {m}, b.net t = some m → m = n)
    (he : Enqueued lossy b n t q) : Inv home { b with queue := q } := by
  refine
    { h with
      known_of_queue := fun hmem => ?_
      queue_nodup := fun m => ?_
      queue_unique := fun hmem hmem' => ?_
      queue_unplaced := fun hmem => ?_
      current_unqueued := fun hcur hmem => ?_
      queue_net := fun hmem hm => ?_ }
  · rcases he.mem hmem with ⟨rfl, rfl⟩ | hmem
    · exact hk
    · exact h.known_of_queue hmem
  · rcases he with rfl | ⟨-, rfl⟩
    · by_cases hm : m = n
      · subst hm
        show (update b.queue m (b.queue m ++ [t]) m).Nodup
        rw [Function.update_self]
        rw [← List.concat_eq_append]
        exact (h.queue_nodup m).concat (hq m)
      · show (update b.queue n (b.queue n ++ [t]) m).Nodup
        rw [Function.update_of_ne hm]
        exact h.queue_nodup m
    · exact h.queue_nodup m
  · rcases he.mem hmem with ⟨rfl, rfl⟩ | hmem
    · rcases he.mem hmem' with ⟨rfl, -⟩ | hmem'
      · rfl
      · exact absurd hmem' (hq _)
    · rcases he.mem hmem' with ⟨rfl, rfl⟩ | hmem'
      · exact absurd hmem (hq _)
      · exact h.queue_unique hmem hmem'
  · rcases he.mem hmem with ⟨rfl, rfl⟩ | hmem
    · exact hs
    · exact h.queue_unplaced hmem
  · rcases he.mem hmem with ⟨rfl, rfl⟩ | hmem
    · exact hc _ hcur
    · exact h.current_unqueued hcur hmem
  · rcases he.mem hmem with ⟨rfl, rfl⟩ | hmem
    · exact hnet hm
    · exact h.queue_net hmem hm

/-- The head of a queue leaves it for good. -/
theorem Inv.dequeue (h : Inv home b) {n : N} {t : T} {rest : List T} (hq : b.queue n = t :: rest) :
    Inv home { b with queue := update b.queue n rest } ∧
      ∀ m, t ∉ update b.queue n rest m := by
  have hnodup : (t :: rest).Nodup := hq ▸ h.queue_nodup n
  have hmem : ∀ {m t'}, t' ∈ update b.queue n rest m → t' ∈ b.queue m := by
    intro m t' hm
    by_cases hmn : m = n
    · subst hmn
      rw [Function.update_self] at hm
      rw [hq]
      exact List.mem_cons_of_mem t hm
    · rwa [Function.update_of_ne hmn] at hm
  refine ⟨{ h with
    known_of_queue := fun hm => h.known_of_queue (hmem hm)
    queue_nodup := fun m => ?_
    queue_unique := fun hm hm' => h.queue_unique (hmem hm) (hmem hm')
    queue_unplaced := fun hm => h.queue_unplaced (hmem hm)
    current_unqueued := fun hc hm => h.current_unqueued hc (hmem hm)
    queue_net := fun hm => h.queue_net (hmem hm) }, fun m hm => ?_⟩
  · show (update b.queue n rest m).Nodup
    by_cases hmn : m = n
    · subst hmn
      rw [Function.update_self]
      exact (List.nodup_cons.mp hnodup).2
    · rw [Function.update_of_ne hmn]
      exact h.queue_nodup m
  · by_cases hmn : m = n
    · subst hmn
      rw [Function.update_self] at hm
      exact (List.nodup_cons.mp hnodup).1 hm
    · have hn : t ∈ b.queue n := hq ▸ List.mem_cons_self ..
      exact hmn (h.queue_unique (hmem hm) hn)

end Queue

/-! ## Shards -/

section Shard

variable [DecidableEq T]

def place (b : Board N S T B) (s : S) (t : T) : Board N S T B :=
  { b with
    shard := update b.shard t (some s)
    held := fun s' t' => (s' = s ∧ t' = t) ∨ b.held s' t' }

def unplace (b : Board N S T B) (t : T) : Board N S T B :=
  { b with
    shard := update b.shard t none
    held := fun s' t' => b.held s' t' ∧ t' ≠ t }

variable {home : S → N} {b : Board N S T B}

theorem shard_of_unplace {t t' : T} {s : S} (hs : (b.unplace t).shard t' = some s) :
    t' ≠ t ∧ b.shard t' = some s := by
  by_cases ht : t' = t
  · simp [Board.unplace, ht] at hs
  · exact ⟨ht, by simpa [Board.unplace, update_apply, ht] using hs⟩

theorem shard_of_place {t t' : T} {s s' : S} (hs : (b.place s t).shard t' = some s') :
    (t' = t ∧ s' = s) ∨ b.shard t' = some s' := by
  by_cases ht : t' = t
  · simp only [Board.place, ht, Function.update_self, Option.some.injEq] at hs
    exact Or.inl ⟨ht, hs.symm⟩
  · simp only [Board.place, update_apply, if_neg ht] at hs
    exact Or.inr hs

theorem Inv.unplace (h : Inv home b) (t : T) : Inv home (b.unplace t) := by
  refine
    { h with
      known_of_shard := fun hs => ?_
      queue_unplaced := fun hq => ?_
      held_iff := fun {s t'} => ?_
      shard_net := fun hs => h.shard_net (shard_of_unplace hs).2 }
  · obtain ⟨s, hs⟩ := Option.ne_none_iff_exists'.mp hs
    exact h.known_of_shard (by rw [(shard_of_unplace hs).2]; exact Option.some_ne_none _)
  · simp [Board.unplace, update_apply, h.queue_unplaced hq]
  · by_cases ht : t' = t
    · simp [Board.unplace, ht]
    · simp [Board.unplace, ht, h.held_iff]

/-- Place a task that waits in no queue on a shard of its network. -/
theorem Inv.place (h : Inv home b) {s : S} {t : T} (hk : b.known t) (hq : ∀ m, t ∉ b.queue m)
    (hs : b.shard t = none) (hnet : ∀ {m}, b.net t = some m → m = home s) :
    Inv home (b.place s t) := by
  refine
    { h with
      known_of_shard := fun h' => ?_
      queue_unplaced := fun {n t'} hq' => ?_
      held_iff := fun {s' t'} => ?_
      shard_net := fun h' hm => ?_ }
  · obtain ⟨s', h'⟩ := Option.ne_none_iff_exists'.mp h'
    rcases shard_of_place h' with ⟨rfl, -⟩ | h'
    · exact hk
    · exact h.known_of_shard (by rw [h']; exact Option.some_ne_none _)
  · have ht : t' ≠ t := fun heq => hq n (heq ▸ hq')
    simp only [Board.place, update_apply, if_neg ht]
    exact h.queue_unplaced hq'
  · by_cases ht : t' = t
    · subst ht
      simp only [Board.place, Function.update_self, Option.some.injEq, h.held_iff, hs, and_true,
        reduceCtorEq, or_false]
      exact eq_comm
    · simp [Board.place, ht, h.held_iff]
  · rcases shard_of_place h' with ⟨rfl, rfl⟩ | h'
    · exact hnet hm
    · exact h.shard_net h' hm

theorem Inv.finish (h : Inv home b) {t : T} {e : N → Nat} (hk : b.known t)
    (hc : ∀ m, b.current m ≠ some t) :
    Inv home { b.unplace t with done := fun t' => t' = t ∨ b.done t', executed := e } :=
  { h.unplace t with
    known_of_done := fun hd => by
      rcases hd with rfl | hd
      · exact hk
      · exact h.known_of_done hd
    current_open := fun hcur hd => by
      rcases hd with rfl | hd
      · exact hc _ hcur
      · exact h.current_open hcur hd }

theorem Inv.forget (h : Inv home b) {t : T} {p : B → Option T} (hd : b.done t)
    (hp : ∀ a, p a = none ∨ p a = b.batchTask a)
    (hpt : ∀ a, b.job t = some (.submit a) → p a = none) :
    Inv home
      { b with
        job := update b.job t none
        net := update b.net t none
        done := fun t' => b.done t' ∧ t' ≠ t
        batchTask := p } := by
  have hcur : ∀ {n t'}, b.current n = some t' → t' ≠ t := fun hc heq =>
    h.current_open hc (heq ▸ hd)
  have hnet : ∀ {t' m}, update b.net t none t' = some m → b.net t' = some m := by
    intro t' m hm
    by_cases ht : t' = t
    · simp [ht] at hm
    · rwa [Function.update_of_ne ht] at hm
  refine
    { h with
      known_of_job := fun hj => ?_
      known_of_done := fun hd => h.known_of_done hd.1
      current_job := fun hc => ?_
      current_net := fun hc => ?_
      current_open := fun hc hd => h.current_open hc hd.1
      net_of_job := fun {t'} hj => ?_
      queue_net := fun hq hm => h.queue_net hq (hnet hm)
      shard_net := fun hs hm => h.shard_net hs (hnet hm)
      linked := fun {a t'} hl => ?_ }
  · obtain ⟨j, hj⟩ := Option.ne_none_iff_exists'.mp hj
    refine h.known_of_job fun hnone => ?_
    simp only [update_apply] at hj
    split at hj
    · cases hj
    · rw [hnone] at hj; cases hj
  · show update b.job t none _ = _
    rw [Function.update_of_ne (hcur hc)]
    exact h.current_job hc
  · show update b.net t none _ = _
    rw [Function.update_of_ne (hcur hc)]
    exact h.current_net hc
  · by_cases ht : t' = t
    · simp [ht] at hj
    · simp only [update_apply, if_neg ht] at hj ⊢
      exact h.net_of_job hj
  · rcases hp a with hp | hp
    · simp only [hp] at hl
      cases hl
    · have hjob := h.linked (hp.symm.trans hl)
      have ht : t' ≠ t := by
        rintro rfl
        simp only [hpt a hjob] at hl
        cases hl
      show update b.job t none t' = _
      rw [Function.update_of_ne ht]
      exact hjob

end Shard

section Link

variable [DecidableEq B]

theorem Inv.link {home : S → N} {b : Board N S T B} (h : Inv home b) {a : B} {t : T}
    (hj : b.job t = some (.submit a)) :
    Inv home { b with batchTask := update b.batchTask a (some t) } :=
  { h with
    linked := fun {a' t'} hl => by
      simp only [update_apply] at hl
      split at hl
      · next ha =>
          cases hl
          rw [ha]
          exact hj
      · exact h.linked hl }

end Link

/-! ## Moves -/

variable [DecidableEq N] [DecidableEq T]

def register (b : Board N S T B) (n : N) (j : Job B) (t : T) : Board N S T B :=
  { b with
    known := fun t' => t' = t ∨ b.known t'
    job := update b.job t (some j)
    net := update b.net t (some n)
    created := update b.created n (b.created n + 1) }

theorem Inv.register {home : S → N} {b : Board N S T B} (h : Inv home b) {t : T}
    (hfresh : ¬b.known t) (n : N) (j : Job B) :
    Inv home (b.register n j t) := by
  have hne : ∀ {t'}, b.known t' → t' ≠ t := fun hk heq => hfresh (heq ▸ hk)
  have hjob : ∀ {t' : T}, b.known t' → (b.register n j t).job t' = b.job t' := fun hk => by
    simp [Board.register, hne hk]
  have hnet : ∀ {t' : T}, b.known t' → (b.register n j t).net t' = b.net t' := fun hk => by
    simp [Board.register, hne hk]
  refine
    { h with
      known_of_job := ?_
      known_of_queue := fun hq => Or.inr (h.known_of_queue hq)
      known_of_shard := fun hs => Or.inr (h.known_of_shard hs)
      known_of_done := fun hd => Or.inr (h.known_of_done hd)
      current_job := fun hc => (hjob (h.current_known hc)).trans (h.current_job hc)
      current_net := fun hc => (hnet (h.current_known hc)).trans (h.current_net hc)
      net_of_job := ?_
      queue_net := fun hq hm => h.queue_net hq ((hnet (h.known_of_queue hq)).symm.trans hm)
      shard_net := fun hs hm => h.shard_net hs
        ((hnet (h.shard_known hs)).symm.trans hm)
      linked := fun hl => ?_ }
  · intro t' hj
    by_cases ht : t' = t
    · exact Or.inl ht
    · refine Or.inr (h.known_of_job ?_)
      simpa [Board.register, update_apply, ht] using hj
  · intro t' hj
    by_cases ht : t' = t
    · simp [Board.register, ht]
    · simp only [Board.register, update_apply, if_neg ht] at hj ⊢
      exact h.net_of_job hj
  · have hj := h.linked hl
    rw [hjob (h.known_of_job (by rw [hj]; exact Option.some_ne_none _)), hj]

theorem Inv.read {home : S → N} {b : Board N S T B} (h : Inv home b) {t : T}
    (hfresh : ¬b.known t) (n : N) :
    Inv home { b.register n .read t with current := update b.current n (some t) } := by
  have hreg := h.register hfresh n .read
  have hcur : ∀ {m t'}, update b.current n (some t) m = some t' →
      (m = n ∧ t' = t) ∨ b.current m = some t' := by
    intro m t' hc
    by_cases hm : m = n
    · subst hm
      rw [Function.update_self] at hc
      exact Or.inl ⟨rfl, (Option.some.inj hc).symm⟩
    · rw [Function.update_of_ne hm] at hc
      exact Or.inr hc
  refine
    { hreg with
      current_job := fun hc => ?_
      current_net := fun hc => ?_
      current_open := fun hc => ?_
      current_unqueued := fun hc => ?_ }
  · rcases hcur hc with ⟨rfl, rfl⟩ | hc
    · simp [Board.register]
    · exact hreg.current_job hc
  · rcases hcur hc with ⟨rfl, rfl⟩ | hc
    · simp [Board.register]
    · exact hreg.current_net hc
  · rcases hcur hc with ⟨rfl, rfl⟩ | hc
    · exact fun hd => hfresh (h.known_of_done hd)
    · exact h.current_open hc
  · rcases hcur hc with ⟨rfl, rfl⟩ | hc
    · exact fun hq => hfresh (h.known_of_queue hq)
    · exact h.current_unqueued hc

/-- `e` counts at most one more task than `executed`, under `n`, and only
if `t` is placed. -/
def Charged (b : Board N S T B) (n : N) (t : T) (e : N → Nat) : Prop :=
  ∀ m, e m ≤ b.executed m + if m = n ∧ b.shard t ≠ none then 1 else 0

variable [DecidableEq B]

inductive Move (home : S → N) (ok : Board N S T B → N → T → Prop) (lossy : Prop)
    (exempt : T → Prop) : Board N S T B → Board N S T B → Prop
  | read {b n t} : ¬b.known t →
      Move home ok lossy exempt b
        { b.register n .read t with current := update b.current n (some t) }
  | submit {b n a t q} : ¬b.known t → Enqueued lossy b n t q →
      Move home ok lossy exempt b { b.register n (.submit a) t with queue := q }
  | finish {b n t e} : b.known t → (∀ m, b.current m ≠ some t) → ok b n t → Charged b n t e →
      Move home ok lossy exempt b
        { b.unplace t with done := fun t' => t' = t ∨ b.done t', executed := e }
  | assign {b s t} : b.current (home s) = some t → b.shard t = none →
      Move home ok lossy exempt b (b.place s t)
  | dequeue {b s t rest} : b.queue (home s) = t :: rest →
      Move home ok lossy exempt b
        ({ b with queue := update b.queue (home s) rest }.place s t)
  | keep {b s t} : b.current (home s) = some t → b.held s t →
      Move home ok lossy exempt b (b.unplace t)
  | requeue {b s t q} : b.current (home s) ≠ some t → b.held s t →
      Enqueued lossy b (home s) t q →
      Move home ok lossy exempt b { b.unplace t with queue := q }
  | link {b a t} : b.job t = some (.submit a) →
      Move home ok lossy exempt b { b with batchTask := update b.batchTask a (some t) }
  | forget {b t p} : b.done t →
      (∀ a, p a = none ∨ p a = b.batchTask a) → (∀ a, b.job t = some (.submit a) → p a = none) →
      Move home ok lossy exempt b
        { b with
          job := update b.job t none
          net := update b.net t none
          done := fun t' => b.done t' ∧ t' ≠ t
          batchTask := p }
  | reopen {b a t} : b.batchTask a = some t → exempt t →
      Move home ok lossy exempt b { b with done := fun t' => b.done t' ∧ t' ≠ t }
  | stop {b n} :
      Move home ok lossy exempt b { b with current := update b.current n none }

theorem Inv.move {home : S → N} {b : Board N S T B} (h : Inv home b)
    {ok : Board N S T B → N → T → Prop} {lossy : Prop} {exempt : T → Prop} {b' : Board N S T B}
    (hm : Move home ok lossy exempt b b') : Inv home b' := by
  cases hm with
  | read hfresh => exact h.read hfresh _
  | @submit n a t q hfresh he =>
      refine (h.register hfresh n (.submit a)).enqueue (Or.inl rfl) ?_ ?_ ?_ ?_ he
      · exact fun m hq => hfresh (h.known_of_queue hq)
      · exact Classical.byContradiction fun hs => hfresh (h.known_of_shard hs)
      · exact fun m hc => hfresh (h.current_known hc)
      · intro m hm
        simp only [Board.register, Function.update_self, Option.some.injEq] at hm
        exact hm.symm
  | finish hk hc _ _ => exact h.finish hk hc
  | assign hc hs =>
      exact h.place (h.current_known hc) (fun m => h.current_unqueued hc) hs fun hm => by
        rw [h.current_net hc] at hm
        exact (Option.some.inj hm).symm
  | @dequeue s t rest hq =>
      obtain ⟨hinv, hnot⟩ := h.dequeue hq
      have hmem : t ∈ b.queue (home s) := hq ▸ List.mem_cons_self ..
      exact hinv.place (h.known_of_queue hmem) hnot (h.queue_unplaced hmem) (h.queue_net hmem)
  | keep _ _ => exact h.unplace _
  | @requeue s t q hc hheld he =>
      have hs := h.held_iff.mp hheld
      refine (h.unplace t).enqueue ?_ (h.shard_unqueued hs) ?_ (h.current_ne hs hc)
        (h.shard_net hs) he
      · exact h.known_of_shard (by rw [hs]; exact Option.some_ne_none _)
      · exact Function.update_self ..
  | link hj => exact h.link hj
  | forget hd hp hpt => exact h.forget hd hp hpt
  | reopen _ _ =>
      exact
        { h with
          known_of_done := fun hd => h.known_of_done hd.1
          current_open := fun hc hd => h.current_open hc hd.1 }
  | @stop n =>
      have hcur : ∀ {m t}, update b.current n none m = some t → b.current m = some t := by
        intro m t hc
        by_cases hm : m = n
        · simp [hm] at hc
        · rwa [Function.update_of_ne hm] at hc
      exact
        { h with
          current_job := fun hc => h.current_job (hcur hc)
          current_net := fun hc => h.current_net (hcur hc)
          current_open := fun hc => h.current_open (hcur hc)
          current_unqueued := fun hc => h.current_unqueued (hcur hc) }

/-! ## Unfinished batch tasks are somewhere -/

def Placed (exempt : T → Prop) (b : Board N S T B) : Prop :=
  ∀ {t a}, b.job t = some (.submit a) → ¬b.done t → ¬exempt t →
    (∃ n, t ∈ b.queue n) ∨ b.shard t ≠ none

theorem Placed.move {home : S → N} {ok : Board N S T B → N → T → Prop} {exempt : T → Prop}
    {b b' : Board N S T B} (hp : Placed exempt b) (h : Inv home b)
    (hm : Move home ok False exempt b b') : Placed exempt b' := by
  intro t' a' hj hd hx
  cases hm with
  | @read n t hfresh =>
      by_cases ht : t' = t
      · simp [Board.register, ht] at hj
      · simp only [Board.register, update_apply, if_neg ht] at hj
        exact hp hj hd hx
  | @submit n a t q hfresh he =>
      by_cases ht : t' = t
      · exact Or.inl ⟨n, ht ▸ he.mem_self not_false⟩
      · simp only [Board.register, update_apply, if_neg ht] at hj
        rcases hp hj hd hx with ⟨m, hq⟩ | hs
        · exact Or.inl ⟨m, he.mem_of_mem hq⟩
        · exact Or.inr hs
  | @finish n t e _ _ _ _ =>
      have ht : t' ≠ t := fun ht => hd (Or.inl ht)
      rcases hp hj (fun h' => hd (Or.inr h')) hx with hq | hs
      · exact Or.inl hq
      · exact Or.inr (by simpa only [unplace, Function.update_of_ne ht] using hs)
  | @assign s t hc hs =>
      by_cases ht : t' = t
      · exact Or.inr (by simp [place, ht])
      · rcases hp hj hd hx with hq | hs
        · exact Or.inl hq
        · exact Or.inr (by simpa only [place, Function.update_of_ne ht] using hs)
  | @dequeue s t rest hq =>
      by_cases ht : t' = t
      · exact Or.inr (by simp [place, ht])
      · rcases hp hj hd hx with ⟨m, hmem⟩ | hs
        · refine Or.inl ⟨m, ?_⟩
          show t' ∈ update b.queue (home s) rest m
          by_cases hm : m = home s
          · subst hm
            rw [hq] at hmem
            rw [Function.update_self]
            exact (List.mem_cons.mp hmem).resolve_left ht
          · rwa [Function.update_of_ne hm]
        · exact Or.inr (by simpa only [place, Function.update_of_ne ht] using hs)
  | @keep s t hc hheld =>
      have ht : t' ≠ t := by
        rintro rfl
        have hjob := hj.symm.trans (h.current_job hc)
        cases hjob
      rcases hp hj hd hx with hq | hs
      · exact Or.inl hq
      · exact Or.inr (by simpa only [unplace, Function.update_of_ne ht] using hs)
  | @requeue s t q hc hheld he =>
      by_cases ht : t' = t
      · exact Or.inl ⟨_, ht ▸ he.mem_self not_false⟩
      · rcases hp hj hd hx with ⟨m, hq⟩ | hs
        · exact Or.inl ⟨m, he.mem_of_mem hq⟩
        · exact Or.inr (by simpa only [unplace, Function.update_of_ne ht] using hs)
  | link _ => exact hp hj hd hx
  | @forget t p _ _ _ =>
      by_cases ht : t' = t
      · simp [ht] at hj
      · simp only [update_apply, if_neg ht] at hj
        exact hp hj (fun h' => hd ⟨h', ht⟩) hx
  | @reopen a t _ hxt =>
      have ht : t' ≠ t := fun ht => hx (ht ▸ hxt)
      exact hp hj (fun h' => hd ⟨h', ht⟩) hx
  | stop => exact hp hj hd hx

/-! ## Finished tasks are nowhere -/

def Settled (b : Board N S T B) : Prop :=
  ∀ {t}, b.done t → (∀ n, t ∉ b.queue n) ∧ b.shard t = none

/-- Only tasks that wait in no queue are finished by events. -/
def Unqueued (b : Board N S T B) (_ : N) (t : T) : Prop := ∀ n, t ∉ b.queue n

theorem Settled.move {home : S → N} {lossy : Prop} {exempt : T → Prop} {b b' : Board N S T B}
    (hst : Settled b) (h : Inv home b) (hm : Move home Unqueued lossy exempt b b') :
    Settled b' := by
  have hopen : ∀ {s t}, b.shard t = some s → ¬b.done t := fun hs hd => by
    rw [(hst hd).2] at hs
    cases hs
  intro t' hd
  cases hm with
  | read _ => exact hst hd
  | @submit n a t q hfresh he =>
      refine ⟨fun m hq => ?_, (hst hd).2⟩
      rcases he.mem hq with ⟨-, rfl⟩ | hq
      · exact hfresh (h.known_of_done hd)
      · exact (hst hd).1 m hq
  | @finish n t e _ _ hok _ =>
      by_cases ht : t' = t
      · subst ht
        exact ⟨hok, Function.update_self ..⟩
      · obtain ⟨hq, hs⟩ := hst (hd.resolve_left ht)
        exact ⟨hq, by simpa only [unplace, Function.update_of_ne ht] using hs⟩
  | @assign s t hc _ =>
      have ht : t' ≠ t := fun ht => h.current_open hc (ht ▸ hd)
      exact ⟨(hst hd).1, by simpa only [place, Function.update_of_ne ht] using (hst hd).2⟩
  | @dequeue s t rest hq =>
      have ht : t' ≠ t := by
        rintro rfl
        exact (hst hd).1 (home s) (hq ▸ List.mem_cons_self ..)
      refine ⟨fun m hmem => ?_, ?_⟩
      · have hmem : t' ∈ update b.queue (home s) rest m := hmem
        by_cases hm : m = home s
        · subst hm
          rw [Function.update_self] at hmem
          exact (hst hd).1 _ (hq ▸ List.mem_cons_of_mem _ hmem)
        · rw [Function.update_of_ne hm] at hmem
          exact (hst hd).1 m hmem
      · simpa only [place, Function.update_of_ne ht] using (hst hd).2
  | @keep s t hc _ =>
      have ht : t' ≠ t := fun ht => h.current_open hc (ht ▸ hd)
      exact ⟨(hst hd).1, by simpa only [unplace, Function.update_of_ne ht] using (hst hd).2⟩
  | @requeue s t q _ hheld he =>
      have ht : t' ≠ t := fun ht => hopen (h.held_iff.mp hheld) (ht ▸ hd)
      refine ⟨fun m hq => ?_, ?_⟩
      · rcases he.mem hq with ⟨-, hq⟩ | hq
        · exact ht hq
        · exact (hst hd).1 m hq
      · simpa only [unplace, Function.update_of_ne ht] using (hst hd).2
  | link _ => exact hst hd
  | forget _ _ _ => exact hst hd.1
  | reopen _ _ => exact hst hd.1
  | stop => exact hst hd

/-! ## More tasks are created than executed -/

/-- The tasks a network still has to execute. -/
def Live (home : S → N) (b : Board N S T B) (n : N) (t : T) : Prop :=
  t ∈ b.queue n ∨ (∃ s, b.shard t = some s ∧ home s = n) ∨ b.current n = some t

/-- Every network has created a task for each one it executed and, beside
those, for each one that is live. -/
def Funded (home : S → N) (b : Board N S T B) : Prop :=
  ∃ live : N → Finset T, (∀ {n t}, Live home b n t → t ∈ live n) ∧
    ∀ n, b.executed n + (live n).card ≤ b.created n

/-- A placed task is finished under the network of its shard. -/
def Homed (home : S → N) (b : Board N S T B) (n : N) (t : T) : Prop :=
  ∀ {s}, b.shard t = some s → home s = n

omit [DecidableEq N] [DecidableEq T] [DecidableEq B] in
theorem Funded.current {home : S → N} {b : Board N S T B} (h : Funded home b) {n : N} {t : T}
    (hc : b.current n = some t) : b.executed n + 1 ≤ b.created n := by
  obtain ⟨live, hlive, hcard⟩ := h
  have hpos : 0 < (live n).card := Finset.card_pos.mpr ⟨t, hlive (Or.inr (Or.inr hc))⟩
  have := hcard n
  omega

omit [DecidableEq N] [DecidableEq T] [DecidableEq B] in
theorem Funded.mono {home : S → N} {b b' : Board N S T B} (h : Funded home b)
    (hlive : ∀ {n t}, Live home b' n t → Live home b n t) (he : ∀ n, b'.executed n ≤ b.executed n)
    (hc : b'.created = b.created) : Funded home b' := by
  obtain ⟨live, hmem, hcard⟩ := h
  refine ⟨live, fun hl => hmem (hlive hl), fun n => ?_⟩
  have := hcard n
  have := he n
  rw [hc]
  omega

omit [DecidableEq B] in
/-- A new task pays for itself. -/
theorem Funded.create {home : S → N} {b b' : Board N S T B} (h : Funded home b) {n : N} {t : T}
    (hlive : ∀ {m t'}, Live home b' m t' → (m = n ∧ t' = t) ∨ Live home b m t')
    (he : b'.executed = b.executed) (hc : b'.created = update b.created n (b.created n + 1)) :
    Funded home b' := by
  obtain ⟨live, hmem, hcard⟩ := h
  refine ⟨update live n (insert t (live n)), fun {m t'} hl => ?_, fun m => ?_⟩
  · by_cases hm : m = n
    · subst hm
      rw [Function.update_self, Finset.mem_insert]
      rcases hlive hl with ⟨-, rfl⟩ | hl
      · exact Or.inl rfl
      · exact Or.inr (hmem hl)
    · rw [Function.update_of_ne hm]
      rcases hlive hl with ⟨hm', -⟩ | hl
      · exact absurd hm' hm
      · exact hmem hl
  · have := hcard m
    rw [he, hc]
    by_cases hm : m = n
    · subst hm
      rw [Function.update_self, Function.update_self]
      have := Finset.card_insert_le t (live m)
      omega
    · rw [Function.update_of_ne hm, Function.update_of_ne hm]
      exact this

omit [DecidableEq B] in
/-- An executed task is no longer live. -/
theorem Funded.execute {home : S → N} {b b' : Board N S T B} (h : Funded home b) {n : N} {t : T}
    (ht : Live home b n t) (hlive : ∀ {m t'}, Live home b' m t' → t' ≠ t ∧ Live home b m t')
    (he : ∀ m, b'.executed m ≤ b.executed m + if m = n then 1 else 0)
    (hc : b'.created = b.created) : Funded home b' := by
  obtain ⟨live, hmem, hcard⟩ := h
  refine ⟨update live n ((live n).erase t), fun {m t'} hl => ?_, fun m => ?_⟩
  · obtain ⟨hne, hl⟩ := hlive hl
    by_cases hm : m = n
    · subst hm
      rw [Function.update_self]
      exact Finset.mem_erase.mpr ⟨hne, hmem hl⟩
    · rw [Function.update_of_ne hm]
      exact hmem hl
  · have := hcard m
    have := he m
    rw [hc]
    by_cases hm : m = n
    · subst hm
      rw [if_pos rfl] at this
      rw [Function.update_self]
      have := Finset.card_erase_add_one (hmem ht)
      omega
    · rw [if_neg hm] at this
      rw [Function.update_of_ne hm]
      omega

theorem Funded.move {home : S → N} {lossy : Prop} {exempt : T → Prop} {b b' : Board N S T B}
    (hf : Funded home b) (h : Inv home b) (hm : Move home (Homed home) lossy exempt b b') :
    Funded home b' := by
  cases hm with
  | @read n t _ =>
      refine hf.create (n := n) (t := t) (fun {m t'} hl => ?_) rfl rfl
      rcases hl with hq | hs | hc
      · exact Or.inr (Or.inl hq)
      · exact Or.inr (Or.inr (Or.inl hs))
      · by_cases hm : m = n
        · subst hm
          simp only [Function.update_self, Option.some.injEq] at hc
          exact Or.inl ⟨rfl, hc.symm⟩
        · simp only [Function.update_of_ne hm] at hc
          exact Or.inr (Or.inr (Or.inr hc))
  | @submit n a t q _ he =>
      refine hf.create (n := n) (t := t) (fun {m t'} hl => ?_) rfl rfl
      rcases hl with hq | hs | hc
      · rcases he.mem hq with hq | hq
        · exact Or.inl hq
        · exact Or.inr (Or.inl hq)
      · exact Or.inr (Or.inr (Or.inl hs))
      · exact Or.inr (Or.inr (Or.inr hc))
  | @finish n t e _ hc hok he =>
      have hlive : ∀ {m t'}, (t' = t → t' ∉ b.queue m) →
          Live home { b.unplace t with done := fun t' => t' = t ∨ b.done t', executed := e } m t' →
            t' ≠ t ∧ Live home b m t' := by
        intro m t' hq hl
        rcases hl with hmem | ⟨s, hs, hn⟩ | hcur
        · exact ⟨fun ht => hq ht hmem, Or.inl hmem⟩
        · obtain ⟨ht, hs⟩ := shard_of_unplace hs
          exact ⟨ht, Or.inr (Or.inl ⟨s, hs, hn⟩)⟩
        · exact ⟨fun ht => hc m (ht ▸ hcur), Or.inr (Or.inr hcur)⟩
      by_cases hs : b.shard t = none
      · refine hf.mono (fun {m t'} hl => ?_) (fun m => ?_) rfl
        · by_cases hq : t' ∈ b.queue m
          · exact Or.inl hq
          · exact (hlive (fun _ => hq) hl).2
        · have := he m
          simpa [hs] using this
      · obtain ⟨s, hs⟩ := Option.ne_none_iff_exists'.mp hs
        refine hf.execute (n := n) (t := t) (Or.inr (Or.inl ⟨s, hs, hok hs⟩))
          (hlive fun ht => ht ▸ h.shard_unqueued hs _) (fun m => ?_) rfl
        have := he m
        simpa [hs] using this
  | @assign s t hc _ =>
      refine hf.mono (fun {m t'} hl => ?_) (fun _ => Nat.le_refl _) rfl
      rcases hl with hq | ⟨s', hs', hm⟩ | hcur
      · exact Or.inl hq
      · rcases shard_of_place hs' with ⟨rfl, rfl⟩ | hs'
        · exact Or.inr (Or.inr (hm ▸ hc))
        · exact Or.inr (Or.inl ⟨s', hs', hm⟩)
      · exact Or.inr (Or.inr hcur)
  | @dequeue s t rest hq =>
      refine hf.mono (fun {m t'} hl => ?_) (fun _ => Nat.le_refl _) rfl
      rcases hl with hmem | ⟨s', hs', hm⟩ | hcur
      · have hmem : t' ∈ update b.queue (home s) rest m := hmem
        by_cases hm : m = home s
        · subst hm
          rw [Function.update_self] at hmem
          exact Or.inl (hq ▸ List.mem_cons_of_mem _ hmem)
        · rw [Function.update_of_ne hm] at hmem
          exact Or.inl hmem
      · rcases shard_of_place hs' with ⟨rfl, rfl⟩ | hs'
        · exact Or.inl (hm ▸ hq ▸ List.mem_cons_self ..)
        · exact Or.inr (Or.inl ⟨s', hs', hm⟩)
      · exact Or.inr (Or.inr hcur)
  | @keep s t _ _ =>
      refine hf.mono (fun {m t'} hl => ?_) (fun _ => Nat.le_refl _) rfl
      rcases hl with hq | ⟨s', hs', hm⟩ | hcur
      · exact Or.inl hq
      · exact Or.inr (Or.inl ⟨s', (shard_of_unplace hs').2, hm⟩)
      · exact Or.inr (Or.inr hcur)
  | @requeue s t q _ hheld he =>
      refine hf.mono (fun {m t'} hl => ?_) (fun _ => Nat.le_refl _) rfl
      rcases hl with hq | ⟨s', hs', hm⟩ | hcur
      · rcases he.mem hq with ⟨rfl, rfl⟩ | hq
        · exact Or.inr (Or.inl ⟨s, h.held_iff.mp hheld, rfl⟩)
        · exact Or.inl hq
      · exact Or.inr (Or.inl ⟨s', (shard_of_unplace hs').2, hm⟩)
      · exact Or.inr (Or.inr hcur)
  | link _ => exact hf.mono id (fun _ => Nat.le_refl _) rfl
  | forget _ _ _ => exact hf.mono id (fun _ => Nat.le_refl _) rfl
  | reopen _ _ => exact hf.mono id (fun _ => Nat.le_refl _) rfl
  | @stop n =>
      refine hf.mono (fun {m t'} hl => ?_) (fun _ => Nat.le_refl _) rfl
      rcases hl with hq | hs | hcur
      · exact Or.inl hq
      · exact Or.inr (Or.inl hs)
      · by_cases hm : m = n
        · simp [hm] at hcur
        · simp only [Function.update_of_ne hm] at hcur
          exact Or.inr (Or.inr hcur)

end Board

end Timechain
