import Timechain.TasksQueue
import Timechain.Transducer

/-!
# The index queue as a journal

What the queue of a network is for: a journal of everything that was ever
pushed, with the items that were popped or removed crossed out. `pop`
answers with the earliest item that is left; `remove` takes the item with a
given push number, if it is still there.

`QueueImpl` keeps no crossed out items and no numbers, only a sparse map and
two indices. `Keeps` relates the two: the slots are the items that are left,
under their push numbers, and the remove index has only crossed out items
below it. Each operation keeps it (`Keeps.push`, `Keeps.remove`,
`Keeps.pop`), so the answers of a whole run are those of the journals, one
for each network.
-/

namespace Timechain

/-- Everything pushed, in order, and the numbers of the items that are gone. -/
structure Journal (V : Type) where
  pushed : List V
  gone : List Nat
  gone_lt : ∀ i ∈ gone, i < pushed.length

/-- The calls of `QueueT`. -/
inductive QueueOp (V : Type) where
  | push (value : V)
  | pop
  | remove (index : Nat)
deriving DecidableEq

namespace Journal

variable {V : Type}

def empty : Journal V := ⟨[], [], fun _ h => absurd h List.not_mem_nil⟩

/-- The numbers of the items neither popped nor removed, earliest first. -/
def live (j : Journal V) : List Nat :=
  (List.range j.pushed.length).filter fun i => i ∉ j.gone

def push (j : Journal V) (value : V) : Journal V where
  pushed := j.pushed ++ [value]
  gone := j.gone
  gone_lt i hi := by
    rw [List.length_append]
    exact Nat.lt_add_right _ (j.gone_lt i hi)

/-- Take the item with the given number, if it is left. -/
def remove (j : Journal V) (index : Nat) : Option V × Journal V :=
  if h : index ∈ j.live then
    (j.pushed[index]?,
      { pushed := j.pushed
        gone := index :: j.gone
        gone_lt := by
          rintro i (_ | ⟨_, hi⟩)
          · exact List.mem_range.mp (List.mem_of_mem_filter h)
          · exact j.gone_lt i hi })
  else (none, j)

/-- Take the earliest item that is left. -/
def pop (j : Journal V) : Option V × Journal V :=
  match j.live.head? with
  | none => (none, j)
  | some index => j.remove index

def exec (j : Journal V) : QueueOp V → Option V × Journal V
  | .push value => (none, j.push value)
  | .pop => j.pop
  | .remove index => j.remove index

theorem mem_live {j : Journal V} {i : Nat} : i ∈ j.live ↔ i < j.pushed.length ∧ i ∉ j.gone := by
  rw [live, List.mem_filter, List.mem_range, decide_eq_true_eq]

end Journal

namespace QueueImpl

open Transducer

variable {N V : Type} [DecidableEq N]

def exec (q : QueueImpl N V) (op : N × QueueOp V) : Option V × QueueImpl N V :=
  match op with
  | (n, .push value) => (none, q.push n value)
  | (n, .pop) => q.pop n
  | (n, .remove index) => q.remove n index

/-! ## The slots after an operation -/

theorem slot_push_self (q : QueueImpl N V) (n : N) (value : V) (i : Nat) :
    (q.push n value).slot n i = if i = q.insertI n then some value else q.slot n i := by
  rw [slot, push, StorageMap.get_insert]
  split
  · next h => rw [if_pos (congrArg Prod.snd h)]
  · next h =>
      rw [if_neg fun hi => h (by rw [hi])]
      rfl

theorem slot_push_of_ne (q : QueueImpl N V) {n m : N} (value : V) (h : m ≠ n) (i : Nat) :
    (q.push n value).slot m i = q.slot m i :=
  StorageMap.get_insert_of_ne _ _ fun heq => h (congrArg Prod.fst heq)

theorem slot_remove_self {q : QueueImpl N V} {n : N} (h : q.removeI n < q.insertI n)
    (index i : Nat) :
    (q.remove n index).2.slot n i = if i = index then none else q.slot n i := by
  have hget : (q.items.remove (n, index)).get (n, i) = if i = index then none else q.slot n i := by
    rw [StorageMap.get_remove]
    split
    · next heq => rw [if_pos (congrArg Prod.snd heq)]
    · next hne =>
        rw [if_neg fun hi => hne (by rw [hi])]
        rfl
  rw [remove, dif_pos h]
  split
  · next hi =>
      rw [← hget, hi]
      rfl
  · exact hget

theorem remove_fst {q : QueueImpl N V} {n : N} (h : q.removeI n < q.insertI n) (index : Nat) :
    (q.remove n index).1 = q.slot n index := by
  rw [remove, dif_pos h]
  split <;> rfl

theorem insertI_remove (q : QueueImpl N V) (n : N) (index : Nat) (m : N) :
    (q.remove n index).2.insertI m = q.insertI m := by
  rw [remove]
  split
  · split <;> rfl
  · rfl

theorem removeI_remove_head {q : QueueImpl N V} {n : N} (h : q.removeI n < q.insertI n) :
    (q.remove n (q.removeI n)).2.removeI n = q.nextHead n := by
  rw [remove, dif_pos h, dif_pos rfl]
  exact (StorageMap.getD_insert ..).trans (if_pos rfl)

theorem removeI_remove_inner (q : QueueImpl N V) {n : N} {index : Nat} (h : index ≠ q.removeI n)
    (m : N) : (q.remove n index).2.removeI m = q.removeI m := by
  rw [remove]
  split <;> rfl

theorem remove_of_ne (q : QueueImpl N V) {n m : N} (h : m ≠ n) (index : Nat) :
    (q.remove n index).2.removeI m = q.removeI m ∧
      ∀ i, (q.remove n index).2.slot m i = q.slot m i := by
  have hslot : ∀ k i, (q.items.remove (n, k)).get (m, i) = q.slot m i := fun k i =>
    StorageMap.get_remove_of_ne _ fun heq => h (congrArg Prod.fst heq)
  rw [remove]
  split
  · split
    · exact ⟨(StorageMap.getD_insert ..).trans (if_neg h), hslot _⟩
    · exact ⟨rfl, hslot _⟩
  · exact ⟨rfl, fun _ => rfl⟩

/-! ## The loop -/

/-- The `while` loop over the holes, as it runs: from index `i` it stops at `j`. -/
inductive Skips (slot : Nat → Option V) (insertI : Nat) : Nat → Nat → Prop
  | done {i : Nat} : ¬((slot i).isNone ∧ i < insertI) → Skips slot insertI i i
  | step {i j : Nat} : (slot i).isNone ∧ i < insertI → Skips slot insertI (satSucc 64 i) j →
      Skips slot insertI i j

/-- As many turns as there are slots left are enough. -/
theorem skips_skipHoles {slot : Nat → Option V} {insertI : Nat} (hmax : insertI ≤ maxVal 64)
    {fuel i : Nat} (hi : i ≤ insertI) (hfuel : insertI - i ≤ fuel) :
    Skips slot insertI i (skipHoles slot insertI fuel i) := by
  induction fuel generalizing i with
  | zero => exact .done fun h => by omega
  | succ fuel ih =>
      rw [skipHoles]
      split
      · next h =>
          have hsucc : satSucc 64 i = i + 1 := satSucc_of_lt (Nat.lt_of_lt_of_le h.2 hmax)
          exact .step h (ih (by omega) (by omega))
      · next h => exact .done h

theorem skips_nextHead (q : QueueImpl N V) {n : N} (h : q.removeI n < q.insertI n) :
    Skips (fun i => (q.items.remove (n, q.removeI n)).get (n, i)) (q.insertI n)
      (satSucc 64 (q.removeI n)) (q.nextHead n) := by
  have hmax := (q.slotsOK n).insert_le
  have hsucc : satSucc 64 (q.removeI n) = q.removeI n + 1 :=
    satSucc_of_lt (Nat.lt_of_lt_of_le h hmax)
  exact skips_skipHoles hmax (by omega) (by omega)

/-! ## The journal a queue keeps -/

/-- The slots are what is left of the journal; only what is gone is below
the remove index. -/
structure Keeps (q : QueueImpl N V) (n : N) (j : Journal V) : Prop where
  insertI : q.insertI n = j.pushed.length
  slot : ∀ i, q.slot n i = if i ∈ j.gone then none else j.pushed[i]?
  below : ∀ i, i < q.removeI n → i ∈ j.gone

namespace Keeps

variable {q : QueueImpl N V} {n : N} {j : Journal V}

theorem start (n : N) : (empty : QueueImpl N V).Keeps n Journal.empty where
  insertI := rfl
  slot _ := rfl
  below _ h := absurd h (Nat.not_lt_zero _)

/-- A slot is filled exactly for the items that are left. -/
theorem slot_ne_none (h : q.Keeps n j) {i : Nat} : q.slot n i ≠ none ↔ i ∈ j.live := by
  rw [h.slot, Journal.mem_live]
  split
  · next hgone => exact ⟨fun hne => absurd rfl hne, fun hlive => absurd hgone hlive.2⟩
  · next hgone =>
      rw [ne_eq, List.getElem?_eq_none_iff, Nat.not_le]
      exact ⟨fun hlt => ⟨hlt, hgone⟩, fun hlive => hlive.1⟩

theorem slot_of_not_live (h : q.Keeps n j) {i : Nat} (hi : i ∉ j.live) : q.slot n i = none :=
  not_not.mp (mt h.slot_ne_none.mp hi)

theorem slot_of_live (h : q.Keeps n j) {i : Nat} (hi : i ∈ j.live) : q.slot n i = j.pushed[i]? := by
  rw [h.slot, if_neg (Journal.mem_live.mp hi).2]

/-- The remove index is the number of the earliest item that is left. -/
theorem head?_live (h : q.Keeps n j) :
    j.live.head? = if q.removeI n < q.insertI n then some (q.removeI n) else none := by
  split
  · next hlt =>
      have hlive := h.slot_ne_none.mp ((q.slotsOK n).head_some hlt)
      rw [Journal.live, List.head?_filter, List.find?_range_eq_some]
      refine ⟨by simpa using (Journal.mem_live.mp hlive).2, ?_, fun i hi => ?_⟩
      · exact List.mem_range.mpr (Journal.mem_live.mp hlive).1
      · simpa using h.below i hi
  · next hge =>
      rw [List.head?_eq_none_iff, List.eq_nil_iff_forall_not_mem]
      intro i hi
      obtain ⟨hlt, hgone⟩ := Journal.mem_live.mp hi
      exact hgone (h.below i (by rw [h.insertI] at hge; omega))

theorem push (h : q.Keeps n j) (hroom : j.pushed.length < maxVal 64) (value : V) :
    (q.push n value).Keeps n (j.push value) where
  insertI := by
    rw [insertI_push_self, h.insertI, satSucc_of_lt hroom, Journal.push, List.length_append]
    rfl
  slot i := by
    rw [slot_push_self, h.insertI, h.slot]
    show _ = if i ∈ j.gone then none else (j.pushed ++ [value])[i]?
    rcases Nat.lt_trichotomy i j.pushed.length with hlt | heq | hgt
    · rw [if_neg (Nat.ne_of_lt hlt), List.getElem?_append_left hlt]
    · have hgone : i ∉ j.gone := fun hi => absurd (j.gone_lt i hi) (by omega)
      rw [if_pos heq, if_neg hgone, heq, List.getElem?_concat_length]
    · rw [if_neg (Nat.ne_of_gt hgt), List.getElem?_eq_none (Nat.le_of_lt hgt),
        List.getElem?_eq_none (by rw [List.length_append]; exact hgt)]
  below := h.below

theorem push_of_ne (h : q.Keeps n j) {m : N} (hne : n ≠ m) (value : V) :
    (q.push m value).Keeps n j where
  insertI := by rw [insertI_push_of_ne q value hne, h.insertI]
  slot i := by rw [slot_push_of_ne q value hne, h.slot]
  below := h.below

/-- Crossing out an item that is left, or one that is not: the slots agree
afterwards. -/
theorem slot_remove (h : q.Keeps n j) (hlt : q.removeI n < q.insertI n) (index i : Nat) :
    (q.remove n index).2.slot n i =
      if i ∈ (j.remove index).2.gone then none else (j.remove index).2.pushed[i]? := by
  rw [slot_remove_self hlt, Journal.remove]
  split
  · next hi =>
      subst hi
      split
      · rw [if_pos (List.mem_cons_self ..)]
      · next hlive => rw [← h.slot, h.slot_of_not_live hlive]
  · next hi =>
      split
      · rw [h.slot]
        simp only [List.mem_cons, hi, false_or]
      · exact h.slot i

theorem remove (h : q.Keeps n j) (index : Nat) :
    (q.remove n index).1 = (j.remove index).1 ∧ (q.remove n index).2.Keeps n (j.remove index).2 := by
  have hpushed : (j.remove index).2.pushed = j.pushed := by
    rw [Journal.remove]
    split <;> rfl
  have hgone : ∀ i ∈ j.gone, i ∈ (j.remove index).2.gone := by
    intro i hi
    rw [Journal.remove]
    split
    · exact List.mem_cons_of_mem _ hi
    · exact hi
  have hhead := h.head?_live
  by_cases hlt : q.removeI n < q.insertI n
  · refine ⟨?_, ⟨by rw [insertI_remove, h.insertI, hpushed], h.slot_remove hlt index, ?_⟩⟩
    · rw [remove_fst hlt, Journal.remove]
      split
      · next hlive => exact h.slot_of_live hlive
      · next hlive => exact h.slot_of_not_live hlive
    · intro i hi
      by_cases hindex : index = q.removeI n
      · -- the head was taken: every index passed by the loop was a hole
        subst hindex
        rw [removeI_remove_head hlt] at hi
        obtain ⟨-, hle, hholes, -⟩ := q.nextHead_spec hlt
        have hlive := h.slot_ne_none.mp ((q.slotsOK n).head_some hlt)
        rcases Nat.lt_trichotomy i (q.removeI n) with hbelow | rfl | habove
        · exact hgone i (h.below i hbelow)
        · rw [Journal.remove, dif_pos hlive]
          exact List.mem_cons_self ..
        · refine hgone i (not_not.mp fun hi' => ?_)
          have hnot : i ∉ j.live := fun hl => h.slot_ne_none.mpr hl (hholes i habove hi)
          exact hnot (Journal.mem_live.mpr ⟨by rw [← h.insertI]; omega, hi'⟩)
      · rw [removeI_remove_inner q hindex] at hi
        exact hgone i (h.below i hi)
  · -- nothing is left: neither side does anything
    rw [if_neg hlt, List.head?_eq_none_iff] at hhead
    have hq : q.remove n index = (none, q) := by rw [QueueImpl.remove, dif_neg hlt]
    have hj : j.remove index = (none, j) := by
      rw [Journal.remove, dif_neg (by rw [hhead]; exact List.not_mem_nil)]
    rw [hq, hj]
    exact ⟨rfl, h⟩

theorem remove_of_ne (h : q.Keeps n j) {m : N} (hne : n ≠ m) (index : Nat) :
    (q.remove m index).2.Keeps n j := by
  obtain ⟨hremove, hslot⟩ := QueueImpl.remove_of_ne q hne index
  exact ⟨by rw [insertI_remove, h.insertI], fun i => by rw [hslot, h.slot],
    fun i hi => h.below i (by rwa [hremove] at hi)⟩

theorem pop (h : q.Keeps n j) :
    (q.pop n).1 = j.pop.1 ∧ (q.pop n).2.Keeps n j.pop.2 := by
  have hhead := h.head?_live
  rw [Journal.pop, hhead]
  split
  · next hnone =>
      have hge : ¬q.removeI n < q.insertI n := by
        intro hlt
        rw [if_pos hlt] at hnone
        cases hnone
      rw [pop_nil (contents_of_le hge)]
      exact ⟨rfl, h⟩
  · next index hsome =>
      have hindex : index = q.removeI n := by
        split at hsome
        · exact (Option.some.inj hsome).symm
        · cases hsome
      subst hindex
      exact h.remove (q.removeI n)

end Keeps

/-! ## Runs -/

/-- How often `ops` push to network `n`. -/
def pushes (n : N) (ops : List (N × QueueOp V)) : Nat :=
  ops.countP fun op => op.1 = n ∧ op.2 matches .push _

/-- Every network keeps its journal, with room for the pushes to come. -/
def KeepsAll (ops : List (N × QueueOp V)) (q : QueueImpl N V) (journals : N → Journal V) : Prop :=
  ∀ n, q.Keeps n (journals n) ∧ (journals n).pushed.length + pushes n ops < 2 ^ 64

theorem pushes_filter (n m : N) (ops : List (N × QueueOp V)) :
    pushes n (ops.filter fun op => op.1 = m) ≤ pushes n ops :=
  List.Sublist.countP_le List.filter_sublist

/-- An operation of another network. -/
theorem Keeps.exec_of_ne {q : QueueImpl N V} {n : N} {j : Journal V} (h : q.Keeps n j)
    (op : N × QueueOp V) (hne : n ≠ op.1) : (q.exec op).2.Keeps n j := by
  obtain ⟨m, op⟩ := op
  cases op with
  | push value => exact h.push_of_ne hne value
  | pop => exact h.remove_of_ne hne _
  | remove index => exact h.remove_of_ne hne index

/-- An operation of the network itself. -/
theorem Keeps.exec {q : QueueImpl N V} {n : N} {j : Journal V} (h : q.Keeps n j) (op : QueueOp V)
    (hroom : j.pushed.length + pushes n [(n, op)] < 2 ^ 64) :
    (q.exec (n, op)).1 = (j.exec op).1 ∧ (q.exec (n, op)).2.Keeps n (j.exec op).2 := by
  cases op with
  | push value =>
      refine ⟨rfl, h.push ?_ value⟩
      have hone : pushes n [(n, QueueOp.push value)] = 1 := by simp [pushes]
      have hmax : maxVal 64 = 2 ^ 64 - 1 := rfl
      omega
  | pop => exact h.pop
  | remove index => exact h.remove index

/-- Only `push` makes a journal longer. -/
theorem length_exec (n : N) (j : Journal V) (op : QueueOp V) :
    (j.exec op).2.pushed.length = j.pushed.length + pushes n [(n, op)] := by
  have hremove : ∀ index, (j.remove index).2.pushed = j.pushed := by
    intro index
    rw [Journal.remove]
    split <;> rfl
  cases op with
  | push value => simp [Journal.exec, Journal.push, pushes]
  | pop =>
      simp only [Journal.exec, Journal.pop]
      split
      · simp [pushes]
      · simp [hremove, pushes]
  | remove index => simp [Journal.exec, hremove, pushes]

theorem pushes_cons (n : N) (op : N × QueueOp V) (ops : List (N × QueueOp V)) :
    pushes n (op :: ops) = pushes n [op] + pushes n ops := by
  simp only [pushes, List.countP_cons, List.countP_nil]
  omega

theorem KeepsAll.step {op : N × QueueOp V} {ops : List (N × QueueOp V)} {q : QueueImpl N V}
    {journals : N → Journal V} (h : KeepsAll (op :: ops) q journals) :
    (q.exec op).1 = (family Journal.exec journals op).1 ∧
      KeepsAll ops (q.exec op).2 (family Journal.exec journals op).2 := by
  obtain ⟨m, op⟩ := op
  obtain ⟨hself, hroom⟩ := h m
  rw [pushes_cons] at hroom
  obtain ⟨hout, hnext⟩ := hself.exec op (by omega)
  refine ⟨hout, fun n => ?_⟩
  obtain ⟨hkeeps, hn⟩ := h n
  by_cases hne : n = m
  · subst hne
    simp only [family, Function.update_self]
    refine ⟨hnext, ?_⟩
    rw [length_exec n]
    omega
  · simp only [family, Function.update_of_ne hne]
    refine ⟨hkeeps.exec_of_ne (m, op) hne, ?_⟩
    rw [pushes_cons] at hn
    omega

theorem trace_eq_journals {ops : List (N × QueueOp V)} (h : ∀ n, pushes n ops < 2 ^ 64) :
    trace exec empty ops = trace (family Journal.exec) (fun _ => Journal.empty) ops := by
  refine trace_eq_of_related (R := KeepsAll) KeepsAll.step fun n => ⟨Keeps.start n, ?_⟩
  rw [show (Journal.empty : Journal V).pushed.length = 0 from rfl, Nat.zero_add]
  exact h n

/-- Whatever is pushed, popped and removed, in whatever order on whatever
networks: every call answers as the journal of its network does, and as it
would without the calls on other networks, and in the state the calls end
in the loop behind a taken head stops. -/
theorem queue_is_fifo (ops : List (N × QueueOp V)) (h : ∀ n, pushes n ops < 2 ^ 64) :
    trace exec empty ops = trace (family Journal.exec) (fun _ => Journal.empty) ops ∧
    (∀ n, (trace exec empty ops).filter (fun e => e.1.1 = n) =
      trace exec empty (ops.filter fun op => op.1 = n)) ∧
    ∀ n, (after exec empty ops).removeI n < (after exec empty ops).insertI n →
      Skips (fun i => ((after exec empty ops).items.remove
          (n, (after exec empty ops).removeI n)).get (n, i))
        ((after exec empty ops).insertI n) (satSucc 64 ((after exec empty ops).removeI n))
        ((after exec empty ops).nextHead n) := by
  have hall := trace_eq_journals h
  refine ⟨hall, fun n => ?_, fun n hlt => skips_nextHead _ hlt⟩
  have hsub : ∀ m, pushes m (ops.filter fun op => op.1 = n) < 2 ^ 64 := fun m =>
    Nat.lt_of_le_of_lt (pushes_filter m n ops) (h m)
  rw [hall, trace_family_filter Journal.exec n ops rfl, trace_eq_journals hsub]

/-- Three items, the one in the middle removed: `pop` passes the hole. The
other network has a queue of its own. -/
def exampleOps : List (Nat × QueueOp Char) :=
  [(1, .push 'a'), (1, .push 'b'), (2, .push 'x'), (1, .push 'c'), (1, .remove 1), (1, .pop),
    (1, .remove 7), (1, .pop), (1, .pop), (2, .pop)]

theorem exampleOps_pushes (n : Nat) : pushes n exampleOps < 2 ^ 64 :=
  Nat.lt_of_le_of_lt (List.countP_le_length ..) (by decide)

theorem queue_is_fifo_example :
    trace exec empty exampleOps =
      trace (family Journal.exec) (fun _ => Journal.empty) exampleOps ∧
    (trace exec empty exampleOps).map Prod.snd =
      [none, none, none, none, some 'b', some 'a', none, some 'c', none, some 'x'] :=
  ⟨(queue_is_fifo exampleOps exampleOps_pushes).1, by decide⟩

end QueueImpl

end Timechain
