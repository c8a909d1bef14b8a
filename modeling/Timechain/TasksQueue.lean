import Timechain.Arith
import Timechain.Storage

/-!
# The index queue

`QueueImpl` (`pallets/tasks/src/queue.rs`): one queue per network, kept
as a double map from `(network, index)` to values with an insert and a
remove index per network. Removing an item from the middle leaves a
hole; removing the head skips the holes behind it.

The two indices are `u64` counters that saturate. The invariant a queue
carries (`SlotsOK`) survives saturation: the remove index never passes
the insert index and always points at an item while it is below it.
What saturation breaks is `push` - the item lands at the last index,
which is never below the insert index - so `contents_push_self` asks
for room.

`contents` is the abstract queue: the items between the two indices, in
index order. `contents_push_self`, `pop_cons` and `pop_nil` are the FIFO
laws the pallet proofs use; the network argument frames everything else.
-/

namespace Timechain

/-- Advance past empty slots while below the insert index. `fuel` bounds
the loop; `insertI - i` is enough (`skipHoles_spec`). -/
def skipHoles {V : Type} (slot : Nat → Option V) (insertI : Nat) : (fuel : Nat) → Nat → Nat
  | 0, i => i
  | fuel + 1, i =>
      if (slot i).isNone ∧ i < insertI then skipHoles slot insertI fuel (satSucc 64 i) else i

/-- The loop exits with its condition false, having passed only holes. -/
theorem skipHoles_spec {V : Type} {slot : Nat → Option V} {insertI : Nat}
    (hmax : insertI ≤ maxVal 64) {fuel i : Nat} (hi : i ≤ insertI) (hfuel : insertI - i ≤ fuel) :
    i ≤ skipHoles slot insertI fuel i ∧ skipHoles slot insertI fuel i ≤ insertI
      ∧ (∀ k, i ≤ k → k < skipHoles slot insertI fuel i → slot k = none)
      ∧ (skipHoles slot insertI fuel i < insertI →
          slot (skipHoles slot insertI fuel i) ≠ none) := by
  induction fuel generalizing i with
  | zero =>
      simp only [skipHoles]
      exact ⟨Nat.le_refl i, hi, fun k h₁ h₂ => by omega, fun h => by omega⟩
  | succ fuel ih =>
      rw [skipHoles]
      split
      · next h =>
          obtain ⟨hnone, hlt⟩ := h
          have hsucc : satSucc 64 i = i + 1 := satSucc_of_lt (Nat.lt_of_lt_of_le hlt hmax)
          rw [hsucc]
          obtain ⟨hle, hle', hholes, hhead⟩ := ih (i := i + 1) hlt (by omega)
          refine ⟨by omega, hle', fun k h₁ h₂ => ?_, hhead⟩
          rcases Nat.eq_or_lt_of_le h₁ with rfl | h₁
          · exact Option.isNone_iff_eq_none.mp hnone
          · exact hholes k h₁ h₂
      · next h =>
          refine ⟨Nat.le_refl i, hi, fun k h₁ h₂ => by omega, fun hlt hnone => h ?_⟩
          exact ⟨Option.isNone_iff_eq_none.mpr hnone, hlt⟩

/-- What the indices of one network guarantee about its slots. -/
structure SlotsOK {V : Type} (insertI removeI : Nat) (slot : Nat → Option V) : Prop where
  insert_le : insertI ≤ maxVal 64
  remove_le : removeI ≤ insertI
  head_some : removeI < insertI → slot removeI ≠ none

structure QueueImpl (N V : Type) [DecidableEq N] where
  insertIndex : StorageMap N Nat
  removeIndex : StorageMap N Nat
  items : StorageMap (N × Nat) V
  ok : ∀ n, SlotsOK (insertIndex.getD n 0) (removeIndex.getD n 0) fun i => items.get (n, i)

namespace QueueImpl

variable {N V : Type} [DecidableEq N]

/-! ## Operations -/

def empty : QueueImpl N V where
  insertIndex := ∅
  removeIndex := ∅
  items := ∅
  ok _ := ⟨Nat.zero_le _, Nat.le_refl _, fun h => absurd h (Nat.lt_irrefl _)⟩

def insertI (q : QueueImpl N V) (n : N) : Nat := q.insertIndex.getD n 0

def removeI (q : QueueImpl N V) (n : N) : Nat := q.removeIndex.getD n 0

def slot (q : QueueImpl N V) (n : N) (i : Nat) : Option V := q.items.get (n, i)

theorem slotsOK (q : QueueImpl N V) (n : N) : SlotsOK (q.insertI n) (q.removeI n) (q.slot n) :=
  q.ok n

theorem push_ok (q : QueueImpl N V) (n : N) (value : V) (m : N) :
    SlotsOK ((q.insertIndex.insert n (satSucc 64 (q.insertI n))).getD m 0) (q.removeI m)
      fun i => (q.items.insert (n, q.insertI n) value).get (m, i) := by
  obtain ⟨hmax, hle, hhead⟩ := q.slotsOK m
  rw [StorageMap.getD_insert]
  by_cases hm : m = n
  · subst hm
    rw [if_pos rfl]
    refine ⟨satAdd_le_max .., Nat.le_trans hle (le_satAdd hmax), fun hlt => ?_⟩
    rw [StorageMap.get_insert]
    split
    · exact Option.some_ne_none _
    · next hne =>
        refine hhead (Nat.lt_of_le_of_ne hle fun heq => hne ?_)
        rw [heq]
  · rw [if_neg hm]
    refine ⟨hmax, hle, fun hlt => ?_⟩
    rw [StorageMap.get_insert_of_ne _ _ fun h => hm (congrArg Prod.fst h)]
    exact hhead hlt

/-- `push`: write at the insert index, then advance it. -/
def push (q : QueueImpl N V) (n : N) (value : V) : QueueImpl N V where
  insertIndex := q.insertIndex.insert n (satSucc 64 (q.insertI n))
  removeIndex := q.removeIndex
  items := q.items.insert (n, q.insertI n) value
  ok := q.push_ok n value

/-- The remove index after the head was taken: the next item, or the
insert index. -/
def nextHead (q : QueueImpl N V) (n : N) : Nat :=
  skipHoles (fun i => (q.items.remove (n, q.removeI n)).get (n, i)) (q.insertI n)
    (q.insertI n - q.removeI n) (satSucc 64 (q.removeI n))

theorem nextHead_spec (q : QueueImpl N V) {n : N} (hlt : q.removeI n < q.insertI n) :
    q.removeI n + 1 ≤ q.nextHead n ∧ q.nextHead n ≤ q.insertI n
      ∧ (∀ k, q.removeI n + 1 ≤ k → k < q.nextHead n → q.slot n k = none)
      ∧ (q.nextHead n < q.insertI n → q.slot n (q.nextHead n) ≠ none) := by
  have hmax := (q.slotsOK n).insert_le
  have hslot : ∀ k, q.removeI n + 1 ≤ k →
      (q.items.remove (n, q.removeI n)).get (n, k) = q.slot n k := by
    intro k hk
    refine StorageMap.get_remove_of_ne _ fun h => ?_
    have := congrArg Prod.snd h
    simp only at this
    omega
  rw [nextHead, satSucc_of_lt (Nat.lt_of_lt_of_le hlt hmax)]
  obtain ⟨hle, hle', hholes, hhead⟩ := @skipHoles_spec _
    (fun i => (q.items.remove (n, q.removeI n)).get (n, i)) _ hmax
    (q.insertI n - q.removeI n) _ hlt (by omega)
  refine ⟨hle, hle', fun k h₁ h₂ => ?_, fun h => ?_⟩
  · rw [← hslot k h₁]; exact hholes k h₁ h₂
  · rw [← hslot _ hle]; exact hhead h

theorem remove_head_ok (q : QueueImpl N V) (n : N) (hlt : q.removeI n < q.insertI n) (m : N) :
    SlotsOK (q.insertI m) ((q.removeIndex.insert n (q.nextHead n)).getD m 0)
      fun i => (q.items.remove (n, q.removeI n)).get (m, i) := by
  obtain ⟨hmax, hle, hhead⟩ := q.slotsOK m
  rw [StorageMap.getD_insert]
  by_cases hm : m = n
  · subst hm
    rw [if_pos rfl]
    obtain ⟨hle₁, hle₂, -, hnext⟩ := q.nextHead_spec hlt
    refine ⟨hmax, hle₂, fun h => ?_⟩
    rw [StorageMap.get_remove_of_ne]
    · exact hnext h
    · intro heq
      have := congrArg Prod.snd heq
      simp only at this
      omega
  · rw [if_neg hm]
    refine ⟨hmax, hle, fun h => ?_⟩
    rw [StorageMap.get_remove_of_ne _ fun heq => hm (congrArg Prod.fst heq)]
    exact hhead h

theorem remove_inner_ok (q : QueueImpl N V) (n : N) {index : Nat} (hne : index ≠ q.removeI n)
    (m : N) :
    SlotsOK (q.insertI m) (q.removeI m) fun i => (q.items.remove (n, index)).get (m, i) := by
  obtain ⟨hmax, hle, hhead⟩ := q.slotsOK m
  refine ⟨hmax, hle, fun h => ?_⟩
  rw [StorageMap.get_remove_of_ne]
  · exact hhead h
  · intro heq
    obtain ⟨rfl, h'⟩ := Prod.mk.injEq .. |>.mp heq
    exact hne h'.symm

/-- `remove`: take the item at `index`; taking the head moves the remove
index past the holes behind it. -/
def remove (q : QueueImpl N V) (n : N) (index : Nat) : Option V × QueueImpl N V :=
  if h : q.removeI n < q.insertI n then
    if hi : index = q.removeI n then
      (q.slot n index,
        { insertIndex := q.insertIndex
          removeIndex := q.removeIndex.insert n (q.nextHead n)
          items := q.items.remove (n, q.removeI n)
          ok := q.remove_head_ok n h })
    else
      (q.slot n index,
        { insertIndex := q.insertIndex
          removeIndex := q.removeIndex
          items := q.items.remove (n, index)
          ok := q.remove_inner_ok n hi })
  else (none, q)

def pop (q : QueueImpl N V) (n : N) : Option V × QueueImpl N V := q.remove n (q.removeI n)

/-! ## The abstract queue -/

/-- Items of network `n` between the two indices, oldest first. -/
def contents (q : QueueImpl N V) (n : N) : List V :=
  (List.range' (q.removeI n) (q.insertI n - q.removeI n)).filterMap (q.slot n)

theorem filterMap_range'_of_none {f : Nat → Option V} {i j stop : Nat} (hij : i ≤ j)
    (hj : j ≤ stop) (hnone : ∀ k, i ≤ k → k < j → f k = none) :
    (List.range' i (stop - i)).filterMap f = (List.range' j (stop - j)).filterMap f := by
  have hsplit : List.range' i (stop - i) = List.range' i (j - i) ++ List.range' j (stop - j) := by
    rw [show stop - i = (j - i) + (stop - j) by omega, ← List.range'_append,
      show i + 1 * (j - i) = j by omega]
  have hnil : (List.range' i (j - i)).filterMap f = [] := by
    rw [List.filterMap_eq_nil_iff]
    intro k hk
    obtain ⟨h₁, h₂⟩ := List.mem_range'_1.mp hk
    exact hnone k h₁ (by omega)
  rw [hsplit, List.filterMap_append, hnil, List.nil_append]

@[simp] theorem contents_empty (n : N) : (empty : QueueImpl N V).contents n = [] := rfl

@[simp] theorem insertI_empty (n : N) : (empty : QueueImpl N V).insertI n = 0 := rfl

theorem contents_of_le {q : QueueImpl N V} {n : N} (h : ¬q.removeI n < q.insertI n) :
    q.contents n = [] := by
  rw [contents, Nat.sub_eq_zero_of_le (Nat.le_of_not_lt h)]
  rfl

/-- A non-empty queue starts with the item at the remove index. -/
theorem contents_of_lt {q : QueueImpl N V} {n : N} (h : q.removeI n < q.insertI n) :
    ∃ x, q.slot n (q.removeI n) = some x
      ∧ q.contents n = x :: (List.range' (q.removeI n + 1)
          (q.insertI n - (q.removeI n + 1))).filterMap (q.slot n) := by
  obtain ⟨x, hx⟩ := Option.ne_none_iff_exists'.mp ((q.slotsOK n).head_some h)
  refine ⟨x, hx, ?_⟩
  rw [contents, show q.insertI n - q.removeI n = (q.insertI n - (q.removeI n + 1)) + 1 by omega,
    List.range'_succ, List.filterMap_cons, hx]

/-! ## Push -/

theorem insertI_push_self (q : QueueImpl N V) (n : N) (value : V) :
    (q.push n value).insertI n = satSucc 64 (q.insertI n) := by
  simp [insertI, push, StorageMap.getD_insert]

theorem insertI_push_of_ne (q : QueueImpl N V) {n m : N} (value : V) (h : m ≠ n) :
    (q.push n value).insertI m = q.insertI m := by
  simp [insertI, push, StorageMap.getD_insert, h]

theorem contents_push_of_ne (q : QueueImpl N V) {n m : N} (value : V) (h : m ≠ n) :
    (q.push n value).contents m = q.contents m := by
  rw [contents, insertI_push_of_ne q value h]
  refine List.filterMap_congr fun i _ => ?_
  exact StorageMap.get_insert_of_ne _ _ fun heq => h (congrArg Prod.fst heq)

/-- With room left, `push` appends. -/
theorem contents_push_self (q : QueueImpl N V) {n : N} (value : V)
    (h : q.insertI n < maxVal 64) : (q.push n value).contents n = q.contents n ++ [value] := by
  have hle := (q.slotsOK n).remove_le
  rw [contents, insertI_push_self, satSucc_of_lt h]
  show (List.range' (q.removeI n) (q.insertI n + 1 - q.removeI n)).filterMap
    ((q.push n value).slot n) = _
  rw [show q.insertI n + 1 - q.removeI n = (q.insertI n - q.removeI n) + 1 by omega,
    List.range'_concat, List.filterMap_append, contents]
  congr 1
  · refine List.filterMap_congr fun i hi => ?_
    obtain ⟨-, hi'⟩ := List.mem_range'_1.mp hi
    refine StorageMap.get_insert_of_ne _ _ fun heq => ?_
    have := congrArg Prod.snd heq
    simp only at this
    omega
  · have hslot : (q.push n value).slot n (q.insertI n) = some value :=
      StorageMap.get_insert_self ..
    rw [show q.removeI n + 1 * (q.insertI n - q.removeI n) = q.insertI n by omega]
    simp [hslot]

/-- With the insert index exhausted, `push` is lost. -/
theorem contents_push_full (q : QueueImpl N V) {n : N} (value : V)
    (h : ¬q.insertI n < maxVal 64) : (q.push n value).contents n = q.contents n := by
  have hfull : q.insertI n = maxVal 64 :=
    Nat.le_antisymm (q.slotsOK n).insert_le (Nat.le_of_not_lt h)
  have hsat : satSucc 64 (q.insertI n) = q.insertI n := by
    rw [hfull]
    exact Nat.min_eq_right (Nat.le_add_right ..)
  rw [contents, insertI_push_self, hsat]
  refine List.filterMap_congr fun i hi => ?_
  have hi' : i < q.removeI n + (q.insertI n - q.removeI n) := (List.mem_range'_1.mp hi).2
  refine StorageMap.get_insert_of_ne _ _ fun heq => ?_
  have hle := (q.slotsOK n).remove_le
  have := congrArg Prod.snd heq
  simp only at this
  omega

/-! ## Pop -/

theorem pop_nil {q : QueueImpl N V} {n : N} (h : q.contents n = []) : q.pop n = (none, q) := by
  have hle : ¬q.removeI n < q.insertI n := fun hlt => by
    obtain ⟨x, -, hx⟩ := contents_of_lt hlt
    rw [hx] at h
    cases h
  rw [pop, remove, dif_neg hle]

theorem pop_fst (q : QueueImpl N V) (n : N) : (q.pop n).1 = (q.contents n).head? := by
  by_cases hlt : q.removeI n < q.insertI n
  · obtain ⟨x, hx, hcons⟩ := contents_of_lt hlt
    rw [pop, remove, dif_pos hlt, dif_pos rfl, hcons]
    exact hx
  · rw [contents_of_le hlt, pop_nil (contents_of_le hlt)]
    rfl

theorem insertI_pop (q : QueueImpl N V) (n m : N) : (q.pop n).2.insertI m = q.insertI m := by
  rw [pop, remove]
  split
  · rw [dif_pos rfl]; rfl
  · rfl

theorem contents_pop_of_ne (q : QueueImpl N V) {n m : N} (h : m ≠ n) :
    (q.pop n).2.contents m = q.contents m := by
  rw [pop, remove]
  split
  · rw [dif_pos rfl]
    have hr : (q.removeIndex.insert n (q.nextHead n)).getD m 0 = q.removeI m := by
      rw [StorageMap.getD_insert, if_neg h]; rfl
    simp only [contents, removeI, insertI, hr]
    refine List.filterMap_congr fun i _ => ?_
    exact StorageMap.get_remove_of_ne _ fun heq => h (congrArg Prod.fst heq)
  · rfl

/-- `pop` drops the oldest item, whatever holes it leaves behind. -/
theorem contents_pop_self (q : QueueImpl N V) (n : N) :
    (q.pop n).2.contents n = (q.contents n).tail := by
  by_cases hlt : q.removeI n < q.insertI n
  · obtain ⟨x, -, hcons⟩ := contents_of_lt hlt
    obtain ⟨hle, hle', hholes, -⟩ := q.nextHead_spec hlt
    rw [hcons, List.tail_cons, filterMap_range'_of_none hle hle' hholes, pop, remove, dif_pos hlt,
      dif_pos rfl]
    have hr : (q.removeIndex.insert n (q.nextHead n)).getD n 0 = q.nextHead n := by
      rw [StorageMap.getD_insert, if_pos rfl]
    simp only [contents, removeI, insertI, hr]
    refine List.filterMap_congr fun i hi => ?_
    obtain ⟨hi', -⟩ := List.mem_range'_1.mp hi
    refine StorageMap.get_remove_of_ne _ fun heq => ?_
    have := congrArg Prod.snd heq
    simp only [removeI] at this hle hi'
    omega
  · rw [pop_nil (contents_of_le hlt), contents_of_le hlt]
    rfl

/-- The form `pop` is used in: it yields the head and leaves the tail. -/
theorem pop_cons {q q' : QueueImpl N V} {n : N} {x : V} (h : q.pop n = (some x, q')) :
    q.contents n = x :: q'.contents n := by
  have h₁ := q.pop_fst n
  have h₂ := q.contents_pop_self n
  rw [h] at h₁ h₂
  rw [h₂]
  exact (List.head?_eq_some_iff.mp h₁.symm).elim fun ys hys => by rw [hys]; rfl

theorem contents_of_pop_none {q q' : QueueImpl N V} {n : N} (h : q.pop n = (none, q')) :
    q.contents n = [] := by
  have h₁ := q.pop_fst n
  rw [h] at h₁
  exact List.head?_eq_none_iff.mp h₁.symm

end QueueImpl

end Timechain
