import Mathlib.Algebra.GroupWithZero.Nat
import Mathlib.Data.Finset.Card
import Mathlib.Data.Finset.Dedup
import Mathlib.Data.Finset.Erase
import Mathlib.Data.Finset.Insert
import Mathlib.Data.List.AList
import Mathlib.Data.List.Sort

/-!
# Storage maps

Key-value storage with the operations a runtime uses: `get`, `insert`,
`remove`, iteration over all entries (`iter`) and over the entries below
the first component of a pair key (`iterPrefix`).

A map is Mathlib's `AList`, so keys are unique by construction. The
backing trie iterates in the order of the *hashed* keys; the hash is a
parameter of the iteration (`key`), and the entries are sorted by it.
`get` never depends on it. The two facts about iteration that proofs
use are order-free: membership is lookup (`mem_iter`, `mem_iterPrefix`)
and keys are visited once (`iter_keys_nodup`, `iterPrefix_keys_nodup`).
-/

namespace Timechain

/-- A storage map from `K` to `V`. A double map has `K` a product. -/
def StorageMap (K V : Type) : Type := AList fun _ : K => V

namespace StorageMap

variable {K K₁ K₂ V : Type}

instance : EmptyCollection (StorageMap K V) := inferInstanceAs (EmptyCollection (AList _))

/-- Entries in the order of their hashed keys. -/
def iter (key : K → Nat) (m : StorageMap K V) : List (K × V) :=
  (m.entries.map fun e => (e.1, e.2)).insertionSort fun a b => key a.1 ≤ key b.1

/-- Number of entries. -/
def len (m : StorageMap K V) : Nat := m.entries.length

theorem length_iter (key : K → Nat) (m : StorageMap K V) : (m.iter key).length = m.len := by
  rw [iter, List.length_insertionSort, List.length_map, len]

section Lookup

variable [DecidableEq K]

def get (m : StorageMap K V) (k : K) : Option V := AList.lookup k m

def containsKey (m : StorageMap K V) (k : K) : Bool := (m.get k).isSome

def insert (m : StorageMap K V) (k : K) (v : V) : StorageMap K V := AList.insert k v m

def remove (m : StorageMap K V) (k : K) : StorageMap K V := AList.erase k m

/-- Value queries: an absent key reads as `d`. -/
def getD (m : StorageMap K V) (k : K) (d : V) : V := (m.get k).getD d

@[simp] theorem get_empty (k : K) : (∅ : StorageMap K V).get k = none := rfl

theorem get_insert (m : StorageMap K V) (k : K) (v : V) (k' : K) :
    (m.insert k v).get k' = if k' = k then some v else m.get k' := by
  split
  · next h => subst h; exact AList.lookup_insert m
  · next h => exact AList.lookup_insert_ne h

theorem get_remove (m : StorageMap K V) (k k' : K) :
    (m.remove k).get k' = if k' = k then none else m.get k' := by
  split
  · next h => subst h; exact AList.lookup_erase k' m
  · next h => exact AList.lookup_erase_ne h

@[simp] theorem get_insert_self (m : StorageMap K V) (k : K) (v : V) :
    (m.insert k v).get k = some v := AList.lookup_insert m

@[simp] theorem get_remove_self (m : StorageMap K V) (k : K) :
    (m.remove k).get k = none := AList.lookup_erase k m

theorem get_insert_of_ne (m : StorageMap K V) {k k' : K} (v : V) (h : k' ≠ k) :
    (m.insert k v).get k' = m.get k' := AList.lookup_insert_ne h

theorem get_remove_of_ne (m : StorageMap K V) {k k' : K} (h : k' ≠ k) :
    (m.remove k).get k' = m.get k' := AList.lookup_erase_ne h

/-- Lookups after a write, as one function. -/
theorem get_insert_eq (m : StorageMap K V) (k : K) (v : V) :
    (m.insert k v).get = Function.update m.get k (some v) := by
  funext k'
  rw [get_insert, Function.update_apply]

theorem get_remove_eq (m : StorageMap K V) (k : K) :
    (m.remove k).get = Function.update m.get k none := by
  funext k'
  rw [get_remove, Function.update_apply]

theorem get_insert_ne_none {m : StorageMap K V} {k k' : K} {v : V} :
    (m.insert k v).get k' ≠ none ↔ k' = k ∨ m.get k' ≠ none := by
  rw [get_insert]
  split
  · next h => simp [h]
  · next h => simp [h]

theorem get_remove_ne_none {m : StorageMap K V} {k k' : K} :
    (m.remove k).get k' ≠ none ↔ k' ≠ k ∧ m.get k' ≠ none := by
  rw [get_remove]
  split
  · next h => simp [h]
  · next h => simp [h]

@[simp] theorem containsKey_iff {m : StorageMap K V} {k : K} :
    m.containsKey k = true ↔ m.get k ≠ none := by
  simp [containsKey, Option.isSome_iff_ne_none]

theorem containsKey_eq_false {m : StorageMap K V} {k : K} :
    m.containsKey k = false ↔ m.get k = none := by
  simp [containsKey]

theorem getD_insert (m : StorageMap K V) (k : K) (v : V) (k' : K) (d : V) :
    (m.insert k v).getD k' d = if k' = k then v else m.getD k' d := by
  simp only [getD, get_insert]
  split <;> rfl

/-- Remove one key after the other. -/
def removeAll (m : StorageMap K V) (ks : List K) : StorageMap K V := ks.foldl remove m

theorem get_removeAll (m : StorageMap K V) (ks : List K) (k : K) :
    (m.removeAll ks).get k = if k ∈ ks then none else m.get k := by
  induction ks generalizing m with
  | nil => rw [if_neg List.not_mem_nil]; rfl
  | cons k' ks ih =>
      rw [removeAll, List.foldl_cons, ← removeAll, ih, get_remove]
      by_cases hk : k = k'
      · simp [hk]
      · simp [hk]

/-- Insert one value under many keys. -/
def insertAll (m : StorageMap K V) (ks : List K) (v : V) : StorageMap K V :=
  ks.foldl (fun m k => m.insert k v) m

theorem get_insertAll (m : StorageMap K V) (ks : List K) (v : V) (k : K) :
    (m.insertAll ks v).get k = if k ∈ ks then some v else m.get k := by
  induction ks generalizing m with
  | nil => rw [if_neg List.not_mem_nil]; rfl
  | cons k' ks ih =>
      rw [insertAll, List.foldl_cons, ← insertAll, ih, get_insert]
      by_cases hk : k = k'
      · simp [hk]
      · simp [hk]

/-! ## Iteration -/

theorem mem_iter {key : K → Nat} {m : StorageMap K V} {k : K} {v : V} :
    (k, v) ∈ m.iter key ↔ m.get k = some v := by
  have hlk : m.get k = some v ↔ (⟨k, v⟩ : Sigma fun _ : K => V) ∈ m.entries :=
    AList.mem_lookup_iff
  rw [hlk, iter, List.mem_insertionSort, List.mem_map]
  constructor
  · rintro ⟨⟨k', v'⟩, hmem, heq⟩
    obtain ⟨rfl, rfl⟩ := Prod.mk.injEq .. |>.mp heq
    exact hmem
  · exact fun hmem => ⟨⟨k, v⟩, hmem, rfl⟩

theorem mem_map_iter {key : K → Nat} {m : StorageMap K V} {k : K} :
    k ∈ (m.iter key).map Prod.fst ↔ m.get k ≠ none := by
  rw [List.mem_map, Option.ne_none_iff_exists']
  constructor
  · rintro ⟨⟨k', v⟩, hmem, rfl⟩
    exact ⟨v, mem_iter.mp hmem⟩
  · rintro ⟨v, hv⟩
    exact ⟨(k, v), mem_iter.mpr hv, rfl⟩

omit [DecidableEq K] in
theorem iter_keys_nodup (key : K → Nat) (m : StorageMap K V) :
    ((m.iter key).map Prod.fst).Nodup := by
  have hperm : (m.iter key).Perm (m.entries.map fun e => (e.1, e.2)) :=
    List.perm_insertionSort _ _
  rw [(hperm.map Prod.fst).nodup_iff, List.map_map]
  exact m.keys_nodup

/-- The iteration of a map with one key. -/
theorem iter_eq_singleton {m : StorageMap K V} {k : K} {v : V}
    (h : ∀ k', m.get k' = if k' = k then some v else none) (key : K → Nat) :
    m.iter key = [(k, v)] := by
  have hnodup : (m.iter key).Nodup := (iter_keys_nodup key m).of_map
  refine List.perm_singleton.mp ((List.perm_ext_iff_of_nodup hnodup (List.nodup_singleton _)).mpr ?_)
  rintro ⟨k', v'⟩
  rw [mem_iter, h, List.mem_singleton, Prod.mk.injEq]
  split
  · next heq => simp [heq, eq_comm]
  · next hne => simp [hne]

/-- A map is read off its iteration. -/
theorem get_of_iter_singleton {key : K → Nat} {m : StorageMap K V} {k : K} {v : V}
    (h : m.iter key = [(k, v)]) (k' : K) : m.get k' = if k' = k then some v else none := by
  have hmem : ∀ v', m.get k' = some v' ↔ k' = k ∧ v' = v := by
    intro v'
    rw [← @mem_iter _ _ _ key, h, List.mem_singleton, Prod.mk.injEq]
  split
  · next heq => exact (hmem v).mpr ⟨heq, rfl⟩
  · next hne => exact Option.eq_none_iff_forall_ne_some.mpr fun v' hv' => hne ((hmem v').mp hv').1

theorem getD_insert_eq_update (m : StorageMap K V) (k : K) (v d : V) :
    (fun x => (m.insert k v).getD x d) = Function.update (fun x => m.getD x d) k v := by
  funext x
  rw [getD_insert, Function.update_apply]

/-! ## Keys

The keys as a finite set, for counting. -/

def keySet (m : StorageMap K V) : Finset K := ((m.iter fun _ => 0).map Prod.fst).toFinset

theorem mem_keySet {m : StorageMap K V} {k : K} : k ∈ m.keySet ↔ m.get k ≠ none := by
  rw [keySet, List.mem_toFinset, mem_map_iter]

theorem card_keySet (m : StorageMap K V) : m.keySet.card = m.len := by
  rw [keySet, List.toFinset_card_of_nodup (iter_keys_nodup _ m), List.length_map, length_iter]

theorem keySet_remove (m : StorageMap K V) (k : K) :
    (m.remove k).keySet = m.keySet.erase k := by
  ext k'
  rw [Finset.mem_erase, mem_keySet, mem_keySet, get_remove_ne_none]

/-! ## Sums -/

/-- The sum of all values. -/
def total (m : StorageMap K Nat) : Nat := (m.entries.map fun e => e.2).sum

omit [DecidableEq K] in
@[simp] theorem total_empty : (∅ : StorageMap K Nat).total = 0 := rfl

theorem total_insert (m : StorageMap K Nat) (k : K) (v : Nat) :
    (m.insert k v).total = v + (m.remove k).total := rfl

/-- One entry and the rest. -/
theorem total_eq (m : StorageMap K Nat) (k : K) : m.total = m.getD k 0 + (m.remove k).total := by
  by_cases hk : k ∈ m.entries.keys
  · obtain ⟨v, l₁, l₂, hl₁, hentries, hrest⟩ := List.exists_of_kerase hk
    have hmem : (⟨k, v⟩ : Sigma fun _ : K => Nat) ∈ m.entries := by
      rw [hentries]
      exact List.mem_append_right l₁ List.mem_cons_self
    have hget : m.get k = some v := AList.mem_lookup_iff.mpr hmem
    have hremove : (m.remove k).entries = l₁ ++ l₂ := hrest
    rw [getD, hget, total, total, hentries, hremove]
    simp only [Option.getD_some, List.map_append, List.map_cons, List.sum_append_nat,
      List.sum_cons]
    omega
  · have hget : m.get k = none := AList.lookup_eq_none.mpr hk
    have hremove : (m.remove k).entries = m.entries := List.kerase_of_notMem_keys hk
    rw [getD, hget, total, total, hremove, Option.getD_none, Nat.zero_add]

theorem total_of_get_none {m : StorageMap K Nat} {k : K} (h : m.get k = none) :
    m.total = (m.remove k).total := by
  rw [m.total_eq k, getD, h, Option.getD_none, Nat.zero_add]

theorem total_of_get {m : StorageMap K Nat} {k : K} {v : Nat} (h : m.get k = some v) :
    m.total = v + (m.remove k).total := by
  rw [m.total_eq k, getD, h, Option.getD_some]

/-- Take out the entry with the largest key. -/
def popLast (key : K → Nat) (m : StorageMap K V) : Option ((K × V) × StorageMap K V) :=
  (m.iter key).getLast?.map fun e => (e, m.remove e.1)

theorem popLast_eq_some {key : K → Nat} {m m' : StorageMap K V} {k : K} {v : V}
    (h : m.popLast key = some ((k, v), m')) : m.get k = some v ∧ m' = m.remove k := by
  rw [popLast, Option.map_eq_some_iff] at h
  obtain ⟨⟨k', v'⟩, hlast, heq⟩ := h
  obtain ⟨⟨rfl, rfl⟩, rfl⟩ := Prod.mk.injEq .. |>.mp heq |>.imp (Prod.mk.injEq .. |>.mp) id
  exact ⟨mem_iter.mp (List.mem_of_getLast? hlast), rfl⟩

theorem popLast_eq_none {key : K → Nat} {m : StorageMap K V} (h : m.popLast key = none) :
    m.len = 0 := by
  rw [popLast, Option.map_eq_none_iff, List.getLast?_eq_none_iff] at h
  rw [← length_iter key, h]
  rfl

end Lookup

/-! ## Double maps -/

section Prefix

variable [DecidableEq K₁] [DecidableEq K₂]

/-- Entries of a double map below the first key `k₁`, in the order of
their hashed second keys. -/
def iterPrefix (key : K₂ → Nat) (m : StorageMap (K₁ × K₂) V) (k₁ : K₁) : List (K₂ × V) :=
  (m.iter fun k => key k.2).filterMap fun e => if e.1.1 = k₁ then some (e.1.2, e.2) else none

theorem mem_iterPrefix {key : K₂ → Nat} {m : StorageMap (K₁ × K₂) V} {k₁ : K₁} {k₂ : K₂}
    {v : V} : (k₂, v) ∈ m.iterPrefix key k₁ ↔ m.get (k₁, k₂) = some v := by
  rw [iterPrefix, List.mem_filterMap, ← @mem_iter _ _ _ (fun k => key k.2)]
  constructor
  · rintro ⟨⟨⟨k, k'⟩, v'⟩, hmem, hif⟩
    by_cases hk : k = k₁
    · subst hk
      simp only [if_true, Option.some.injEq, Prod.mk.injEq] at hif
      obtain ⟨rfl, rfl⟩ := hif
      exact hmem
    · rw [if_neg hk] at hif; cases hif
  · exact fun hmem => ⟨_, hmem, by simp⟩

omit [DecidableEq K₂] in
theorem iterPrefix_keys_nodup (key : K₂ → Nat) (m : StorageMap (K₁ × K₂) V) (k₁ : K₁) :
    ((m.iterPrefix key k₁).map Prod.fst).Nodup := by
  have heq : (m.iterPrefix key k₁).map Prod.fst
      = ((m.iter fun k => key k.2).map Prod.fst).filterMap
          fun k => if k.1 = k₁ then some k.2 else none := by
    rw [iterPrefix, List.map_filterMap, List.filterMap_map]
    congr 1
    funext e
    simp only [Function.comp]
    split <;> rfl
  rw [heq]
  refine List.Nodup.filterMap ?_ (iter_keys_nodup _ m)
  rintro ⟨a, b⟩ ⟨a', b'⟩ c ha ha'
  simp only [Option.mem_def, ite_eq_iff, reduceCtorEq, and_false, or_false,
    Option.some.injEq] at ha ha'
  rw [ha.1, ha.2, ha'.1, ha'.2]

/-- The second keys below `k₁`. -/
def prefixKeys (m : StorageMap (K₁ × K₂) V) (k₁ : K₁) : Finset K₂ :=
  ((m.iterPrefix (fun _ => 0) k₁).map Prod.fst).toFinset

theorem mem_map_iterPrefix {key : K₂ → Nat} {m : StorageMap (K₁ × K₂) V} {k₁ : K₁} {k₂ : K₂} :
    k₂ ∈ (m.iterPrefix key k₁).map Prod.fst ↔ m.get (k₁, k₂) ≠ none := by
  rw [List.mem_map, Option.ne_none_iff_exists']
  constructor
  · rintro ⟨⟨k, v⟩, hmem, rfl⟩
    exact ⟨v, mem_iterPrefix.mp hmem⟩
  · rintro ⟨v, hv⟩
    exact ⟨(k₂, v), mem_iterPrefix.mpr hv, rfl⟩

theorem mem_prefixKeys {m : StorageMap (K₁ × K₂) V} {k₁ : K₁} {k₂ : K₂} :
    k₂ ∈ m.prefixKeys k₁ ↔ m.get (k₁, k₂) ≠ none := by
  rw [prefixKeys, List.mem_toFinset, mem_map_iterPrefix]

theorem prefixKeys_remove (m : StorageMap (K₁ × K₂) V) (k₁ : K₁) (k₂ : K₂) :
    (m.remove (k₁, k₂)).prefixKeys
      = Function.update m.prefixKeys k₁ ((m.prefixKeys k₁).erase k₂) := by
  funext x
  ext y
  rw [mem_prefixKeys, get_remove, Function.update_apply]
  by_cases hx : x = k₁
  · by_cases hy : y = k₂
    · simp [hx, hy]
    · simp [hx, hy, mem_prefixKeys]
  · simp [hx, mem_prefixKeys]

theorem prefixKeys_insert (m : StorageMap (K₁ × K₂) V) (k₁ : K₁) (k₂ : K₂) (v : V) :
    (m.insert (k₁, k₂) v).prefixKeys
      = Function.update m.prefixKeys k₁ (Insert.insert k₂ (m.prefixKeys k₁)) := by
  funext x
  ext y
  rw [mem_prefixKeys, get_insert, Function.update_apply]
  by_cases hx : x = k₁
  · by_cases hy : y = k₂
    · simp [hx, hy]
    · simp [hx, hy, mem_prefixKeys]
  · simp [hx, mem_prefixKeys]

theorem prefixKeys_insert_of_ne_none {m : StorageMap (K₁ × K₂) V} {k₁ : K₁} {k₂ : K₂}
    (h : m.get (k₁, k₂) ≠ none) (v : V) : (m.insert (k₁, k₂) v).prefixKeys = m.prefixKeys := by
  rw [prefixKeys_insert, Finset.insert_eq_of_mem (mem_prefixKeys.mpr h), Function.update_eq_self]

/-- Whatever the storage order, the same keys are visited. -/
theorem coe_iterPrefix (key : K₂ → Nat) (m : StorageMap (K₁ × K₂) V) (k₁ : K₁) :
    (((m.iterPrefix key k₁).map Prod.fst : List K₂) : Multiset K₂) = (m.prefixKeys k₁).val := by
  refine (Multiset.Nodup.ext (Multiset.coe_nodup.mpr (iterPrefix_keys_nodup key m k₁))
    (m.prefixKeys k₁).nodup).mpr fun k₂ => ?_
  rw [Multiset.mem_coe, mem_map_iterPrefix, Finset.mem_val, mem_prefixKeys]

end Prefix

end StorageMap

end Timechain
