import Mathlib.Data.List.Basic
import Timechain.Outcome

/-!
# Queues by number

Work that has to wait for a number - a block, a round, a deadline - is kept
in one queue per number (`BTreeMap<u32, Vec<T>>`). `push` appends to the
queue of its number, `popDue` takes the lowest queue if its number is
reached, and `drain` does so until none is left, handing every element to a
function that may fail.

Seen from one number, a bucket is a plain queue (`pending_push`,
`pending_popDue`). A `drain` that returns has taken everything that was
due and nothing else.
-/

namespace Timechain

variable {α : Type}

structure Buckets (α : Type) where
  entries : List (Nat × List α)
  sorted : entries.Pairwise (·.1 < ·.1)

namespace Buckets

def empty : Buckets α := ⟨[], List.Pairwise.nil⟩

def pushEntries (n : Nat) (a : α) : List (Nat × List α) → List (Nat × List α)
  | [] => [(n, [a])]
  | (m, as) :: es =>
      if n < m then (n, [a]) :: (m, as) :: es
      else if n = m then (m, as ++ [a]) :: es
      else (m, as) :: pushEntries n a es

theorem mem_pushEntries {n : Nat} {a : α} {es : List (Nat × List α)} {e : Nat × List α}
    (h : e ∈ pushEntries n a es) : e.1 = n ∨ ∃ e' ∈ es, e.1 = e'.1 := by
  induction es with
  | nil =>
      cases List.mem_singleton.mp h
      exact Or.inl rfl
  | cons e' es ih =>
      obtain ⟨m, as⟩ := e'
      unfold pushEntries at h
      split at h
      · rcases List.mem_cons.mp h with rfl | h
        · exact Or.inl rfl
        · exact Or.inr ⟨e, h, rfl⟩
      · split at h
        · rcases List.mem_cons.mp h with rfl | h
          · exact Or.inr ⟨(m, as), List.mem_cons_self, rfl⟩
          · exact Or.inr ⟨e, List.mem_cons_of_mem _ h, rfl⟩
        · rcases List.mem_cons.mp h with rfl | h
          · exact Or.inr ⟨(m, as), List.mem_cons_self, rfl⟩
          · rcases ih h with h | ⟨e', he', heq⟩
            · exact Or.inl h
            · exact Or.inr ⟨e', List.mem_cons_of_mem _ he', heq⟩

theorem pushEntries_sorted {n : Nat} {a : α} {es : List (Nat × List α)}
    (h : es.Pairwise (·.1 < ·.1)) : (pushEntries n a es).Pairwise (·.1 < ·.1) := by
  induction es with
  | nil => exact List.pairwise_singleton _ _
  | cons e es ih =>
      obtain ⟨m, as⟩ := e
      obtain ⟨hfirst, hrest⟩ := List.pairwise_cons.mp h
      unfold pushEntries
      split
      · next hlt =>
          refine List.pairwise_cons.mpr ⟨fun e he => ?_, h⟩
          rcases List.mem_cons.mp he with rfl | he
          · exact hlt
          · exact Nat.lt_trans hlt (hfirst e he)
      · next hle =>
          split
          · exact List.pairwise_cons.mpr ⟨hfirst, hrest⟩
          · next hne =>
              refine List.pairwise_cons.mpr ⟨fun e he => ?_, ih hrest⟩
              rcases mem_pushEntries he with heq | ⟨e', he', heq⟩
              · show m < e.1
                omega
              · show m < e.1
                rw [heq]
                exact hfirst e' he'

def push (b : Buckets α) (n : Nat) (a : α) : Buckets α :=
  ⟨pushEntries n a b.entries, pushEntries_sorted b.sorted⟩

/-- The queue of number `n`, seen from number `k`. -/
def inQueue (n : Nat) (as : List α) (k : Nat) : List α := if n = k then as else []

theorem inQueue_self (n : Nat) (as : List α) : inQueue n as n = as := if_pos rfl

theorem inQueue_of_ne {n k : Nat} (h : n ≠ k) (as : List α) : inQueue n as k = [] := if_neg h

@[simp] theorem inQueue_nil (n k : Nat) : inQueue n ([] : List α) k = [] := ite_self _

theorem inQueue_append (n : Nat) (as bs : List α) (k : Nat) :
    inQueue n as k ++ inQueue n bs k = inQueue n (as ++ bs) k := by
  by_cases h : n = k
  · rw [h, inQueue_self, inQueue_self, inQueue_self]
  · rw [inQueue_of_ne h, inQueue_of_ne h, inQueue_of_ne h]
    rfl

/-- What waits for `k`, oldest first. -/
def pending (b : Buckets α) (k : Nat) : List α := b.entries.flatMap fun e => inQueue e.1 e.2 k

theorem flatMap_of_lt {es : List (Nat × List α)} {k : Nat} (h : ∀ e ∈ es, k < e.1) :
    (es.flatMap fun e => inQueue e.1 e.2 k) = [] := by
  refine List.flatMap_eq_nil_iff.mpr fun e he => ?_
  exact inQueue_of_ne (Nat.ne_of_gt (h e he)) _

theorem pending_push (b : Buckets α) (n : Nat) (a : α) (k : Nat) :
    (b.push n a).pending k = b.pending k ++ inQueue n [a] k := by
  obtain ⟨es, hsorted⟩ := b
  show (pushEntries n a es).flatMap _ = es.flatMap _ ++ _
  induction es with
  | nil => exact List.append_nil _
  | cons e es ih =>
      obtain ⟨m, as⟩ := e
      obtain ⟨hfirst, hrest⟩ := List.pairwise_cons.mp hsorted
      unfold pushEntries
      split
      · next hlt =>
          rw [List.flatMap_cons]
          by_cases hk : n = k
          · -- no later queue has the number
            have hnone := @flatMap_of_lt α ((m, as) :: es) k fun e he => by
              rcases List.mem_cons.mp he with rfl | he
              · exact hk ▸ hlt
              · exact Nat.lt_trans (hk ▸ hlt) (hfirst e he)
            rw [hnone]
            exact List.append_nil _
          · rw [inQueue_of_ne hk, List.nil_append, List.append_nil]
      · split
        · next heq =>
            subst heq
            rw [List.flatMap_cons, List.flatMap_cons, ← inQueue_append, List.append_assoc,
              List.append_assoc]
            congr 1
            by_cases hk : n = k
            · rw [flatMap_of_lt (hk ▸ hfirst)]
              exact List.append_nil _
            · rw [inQueue_of_ne hk]
              exact (List.append_nil _).symm
        · rw [List.flatMap_cons, List.flatMap_cons, ih hrest, List.append_assoc]

/-- The lowest queue, if its number is reached. -/
def popDue (b : Buckets α) (now : Nat) : Option ((Nat × List α) × Buckets α) :=
  match b with
  | ⟨[], _⟩ => none
  | ⟨e :: es, hsorted⟩ => if now < e.1 then none else some (e, ⟨es, hsorted.of_cons⟩)

theorem popDue_some {b b' : Buckets α} {now n : Nat} {as : List α}
    (h : b.popDue now = some ((n, as), b')) :
    n ≤ now ∧ b.entries = (n, as) :: b'.entries := by
  obtain ⟨es, hsorted⟩ := b
  cases es with
  | nil => cases h
  | cons e es =>
      unfold popDue at h
      dsimp only at h
      split at h
      · cases h
      · next hle =>
          cases h
          exact ⟨Nat.le_of_not_lt hle, rfl⟩

theorem pending_popDue {b b' : Buckets α} {now n : Nat} {as : List α}
    (h : b.popDue now = some ((n, as), b')) (k : Nat) :
    b.pending k = inQueue n as k ++ b'.pending k := by
  unfold pending
  rw [(popDue_some h).2, List.flatMap_cons]

/-- Nothing is due. -/
theorem pending_of_popDue_none {b : Buckets α} {now k : Nat} (h : b.popDue now = none)
    (hk : k ≤ now) : b.pending k = [] := by
  obtain ⟨es, hsorted⟩ := b
  cases es with
  | nil => rfl
  | cons e es =>
      unfold popDue at h
      dsimp only at h
      split at h
      · next hlt =>
          refine flatMap_of_lt fun e' he' => ?_
          rcases List.mem_cons.mp he' with rfl | he'
          · omega
          · have := (List.pairwise_cons.mp hsorted).1 e' he'
            omega
      · cases h

/-! ## Draining -/

section Drain

variable {σ : Type} (get : σ → Buckets α) (set : σ → Buckets α → σ)
  (handle : Nat → List α → σ → Outcome σ) (now : Nat)

/-- The `while` loop: as long as the lowest queue is due, take it out and
handle it. Each round takes one queue out, so there are no more rounds than
queues. -/
def drainRounds : Nat → σ → Outcome σ
  | 0, s => .ok s
  | rounds + 1, s =>
      match (get s).popDue now with
      | none => .ok s
      | some ((n, as), rest) => (handle n as (set s rest)).bind (drainRounds rounds)

def drain (s : σ) : Outcome σ := drainRounds get set handle now (get s).entries.length s

variable {get set handle now} {Q E : σ → Prop}

theorem drainRounds_ends
    (hstep : ∀ s n as rest, Q s → (get s).popDue now = some ((n, as), rest) →
      (handle n as (set s rest)).Ends (fun s' => Q s' ∧ get s' = rest) E)
    {rounds : Nat} {s : σ} (hrounds : (get s).entries.length ≤ rounds) (h : Q s) :
    (drainRounds get set handle now rounds s).Ends
      (fun s' => Q s' ∧ (get s').popDue now = none) E := by
  induction rounds generalizing s with
  | zero =>
      refine ⟨h, ?_⟩
      have hnil := List.eq_nil_of_length_eq_zero (Nat.eq_zero_of_le_zero hrounds)
      unfold popDue
      split
      · rfl
      · next e es hsorted heq =>
          rw [heq] at hnil
          cases hnil
  | succ rounds ih =>
      unfold drainRounds
      split
      · next hnone => exact ⟨h, hnone⟩
      · next n as rest hpop =>
          refine Outcome.Ends.bind (hstep s n as rest h hpop) fun s' hs' => ?_
          refine ih ?_ hs'.1
          have hentries := (popDue_some hpop).2
          rw [hentries, List.length_cons] at hrounds
          rw [hs'.2]
          omega

/-- The rule for draining: a property every round keeps, where a round
leaves the other queues alone, holds at the end, and nothing due is left. -/
theorem drain_ends
    (hstep : ∀ s n as rest, Q s → (get s).popDue now = some ((n, as), rest) →
      (handle n as (set s rest)).Ends (fun s' => Q s' ∧ get s' = rest) E)
    {s : σ} (h : Q s) :
    (drain get set handle now s).Ends
      (fun s' => Q s' ∧ ∀ k ≤ now, (get s').pending k = []) E :=
  (drainRounds_ends hstep (Nat.le_refl _) h).mono
    (fun _ hs => ⟨hs.1, fun _ hk => pending_of_popDue_none hs.2 hk⟩) fun _ hs => hs

end Drain

end Buckets

end Timechain
