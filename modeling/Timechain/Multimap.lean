import Mathlib.Data.List.Perm.Basic
import Timechain.Codec
import Timechain.Storage

/-!
# Multimaps

A table that keeps a set of values under every key, as embedded stores
offer it next to plain tables. The values of a key come back in the
order of the value type, each once.

The order is given by a rank: a list of numbers, compared position by
position as derived orders compare fields and byte strings compare
bytes. A `Multimap` carries the proof that the values of every key are
strictly ordered. What callers use is the set semantics (`mem_insert`),
the order (`sorted_get`), and that a write to one key leaves the others
alone (`get_insert_of_ne`).
-/

namespace Timechain

/-! ## The order -/

/-- Position by position; of two lists with a common beginning the shorter
one comes first. -/
def lexLt : List Nat → List Nat → Bool
  | _, [] => false
  | [], _ :: _ => true
  | a :: as, b :: bs => if a < b then true else if b < a then false else lexLt as bs

@[simp] theorem lexLt_nil (as : List Nat) : lexLt as [] = false := by
  cases as with
  | nil => rfl
  | cons a as => rfl

theorem lexLt_cons {a b : Nat} {as bs : List Nat} :
    lexLt (a :: as) (b :: bs) = true ↔ a < b ∨ a = b ∧ lexLt as bs = true := by
  show (if a < b then true else if b < a then false else lexLt as bs) = true ↔ _
  split
  · next h => simp [h]
  · next h =>
      split
      · next h' => simp [h, Nat.ne_of_gt h']
      · next h' =>
          obtain rfl : a = b := by omega
          simp

theorem lexLt_irrefl (as : List Nat) : lexLt as as = false := by
  induction as with
  | nil => rfl
  | cons a as ih =>
      rw [Bool.eq_false_iff, Ne, lexLt_cons]
      simp [ih]

theorem lexLt_trans {as bs cs : List Nat} (h : lexLt as bs = true) (h' : lexLt bs cs = true) :
    lexLt as cs = true := by
  induction as generalizing bs cs with
  | nil =>
      cases cs with
      | nil => simp at h'
      | cons c cs => rfl
  | cons a as ih =>
      cases bs with
      | nil => simp at h
      | cons b bs =>
          cases cs with
          | nil => simp at h'
          | cons c cs =>
              rw [lexLt_cons] at h h' ⊢
              rcases h with hab | ⟨rfl, has⟩
              · rcases h' with hbc | ⟨rfl, -⟩
                · exact Or.inl (Nat.lt_trans hab hbc)
                · exact Or.inl hab
              · rcases h' with hbc | ⟨rfl, hbs⟩
                · exact Or.inl hbc
                · exact Or.inr ⟨rfl, ih has hbs⟩

theorem eq_of_not_lexLt {as bs : List Nat} (h : lexLt as bs = false) (h' : lexLt bs as = false) :
    as = bs := by
  induction as generalizing bs with
  | nil =>
      cases bs with
      | nil => rfl
      | cons b bs => cases h
  | cons a as ih =>
      cases bs with
      | nil => cases h'
      | cons b bs =>
          have hab : ¬(a < b ∨ a = b ∧ lexLt as bs = true) := by
            rw [← lexLt_cons, h]
            simp
          have hba : ¬(b < a ∨ b = a ∧ lexLt bs as = true) := by
            rw [← lexLt_cons, h']
            simp
          obtain rfl : a = b := by omega
          simp only [Nat.lt_irrefl, false_or, true_and, Bool.not_eq_true] at hab hba
          rw [ih hab hba]

/-! ## Sorted values -/

section Values

variable {V : Type} (rank : V → List Nat)

/-- Insert `v` where it belongs, unless it is there. -/
def insertSorted (v : V) : List V → List V
  | [] => [v]
  | w :: ws =>
      if lexLt (rank v) (rank w) then v :: w :: ws
      else if lexLt (rank w) (rank v) then w :: insertSorted v ws
      else w :: ws

theorem insertSorted_cons (v w : V) (ws : List V) :
    insertSorted rank v (w :: ws)
      = if lexLt (rank v) (rank w) then v :: w :: ws
        else if lexLt (rank w) (rank v) then w :: insertSorted rank v ws else w :: ws := rfl

/-- Strictly ordered, hence without repetition. -/
def RankSorted (vs : List V) : Prop := vs.Pairwise fun v w => lexLt (rank v) (rank w) = true

variable {rank} {v w : V} {vs : List V}

theorem RankSorted.nodup (h : RankSorted rank vs) : vs.Nodup := by
  refine List.Pairwise.imp ?_ h
  rintro a b hab rfl
  rw [lexLt_irrefl] at hab
  cases hab

theorem mem_insertSorted (hrank : Function.Injective rank) :
    w ∈ insertSorted rank v vs ↔ w = v ∨ w ∈ vs := by
  induction vs with
  | nil => exact List.mem_cons
  | cons u us ih =>
      rw [insertSorted_cons]
      split
      · simp
      · next h =>
          split
          · rw [List.mem_cons, ih, List.mem_cons]
            exact or_left_comm
          · next h' =>
              -- neither comes first: `v` is there already
              obtain rfl : v = u := hrank (eq_of_not_lexLt (by simpa using h) (by simpa using h'))
              simp

theorem mem_of_mem_insertSorted (h : w ∈ insertSorted rank v vs) : w = v ∨ w ∈ vs := by
  induction vs with
  | nil => exact List.mem_cons.mp h
  | cons u us ih =>
      rw [insertSorted_cons] at h
      split at h
      · simpa using h
      · split at h
        · rcases List.mem_cons.mp h with rfl | h
          · exact Or.inr List.mem_cons_self
          · exact (ih h).imp_right (List.mem_cons_of_mem u)
        · exact Or.inr h

/-- An insertion that a view does not see. -/
theorem filterMap_insertSorted {β : Type} {f : V → Option β} (hv : f v = none) (vs : List V) :
    (insertSorted rank v vs).filterMap f = vs.filterMap f := by
  induction vs with
  | nil => exact List.filterMap_cons_none hv
  | cons u us ih =>
      rw [insertSorted_cons]
      split
      · rw [List.filterMap_cons_none hv]
      · split
        · rw [List.filterMap_cons, List.filterMap_cons, ih]
        · rfl

theorem RankSorted.insertSorted (h : RankSorted rank vs) (v : V) :
    RankSorted rank (insertSorted rank v vs) := by
  induction vs with
  | nil => exact List.pairwise_singleton _ _
  | cons u us ih =>
      obtain ⟨hfirst, hrest⟩ := List.pairwise_cons.mp h
      rw [insertSorted_cons]
      split
      · next hvu =>
          refine List.pairwise_cons.mpr ⟨fun w hw => ?_, h⟩
          rcases List.mem_cons.mp hw with rfl | hw
          · exact hvu
          · exact lexLt_trans hvu (hfirst w hw)
      · split
        · next huv =>
            refine List.pairwise_cons.mpr ⟨fun w hw => ?_, ih hrest⟩
            rcases mem_of_mem_insertSorted hw with rfl | hw
            · exact huv
            · exact hfirst w hw
        · exact h

end Values

/-! ## The table -/

/-- Values of type `V`, ordered by `rank`, under keys of type `K`. -/
structure Multimap (K : Type) [DecidableEq K] {V : Type} (rank : V → List Nat) where
  table : StorageMap K (List V)
  sorted : ∀ k, RankSorted rank (table.getD k [])

namespace Multimap

variable {K V : Type} [DecidableEq K] {rank : V → List Nat}

def empty : Multimap K rank := ⟨∅, fun _ => List.Pairwise.nil⟩

/-- The values of a key, in order. -/
def get (m : Multimap K rank) (k : K) : List V := m.table.getD k []

def insert (m : Multimap K rank) (k : K) (v : V) : Multimap K rank where
  table := m.table.insert k (insertSorted rank v (m.get k))
  sorted k' := by
    rw [StorageMap.getD_insert]
    split
    · exact (m.sorted k).insertSorted v
    · exact m.sorted k'

def remove (m : Multimap K rank) (k : K) (v : V) : Multimap K rank where
  table := m.table.insert k ((m.get k).filter fun w => rank w != rank v)
  sorted k' := by
    rw [StorageMap.getD_insert]
    split
    · exact (m.sorted k).filter _
    · exact m.sorted k'

/-- Forget all values of a key. -/
def removeAll (m : Multimap K rank) (k : K) : Multimap K rank where
  table := m.table.insert k []
  sorted k' := by
    rw [StorageMap.getD_insert]
    split
    · exact List.Pairwise.nil
    · exact m.sorted k'

variable (m : Multimap K rank) {k k' : K} (v w : V)

theorem sorted_get (k : K) : RankSorted rank (m.get k) := m.sorted k

theorem nodup_get (k : K) : (m.get k).Nodup := (m.sorted_get k).nodup

theorem get_insert (k k' : K) :
    (m.insert k v).get k' = if k' = k then insertSorted rank v (m.get k) else m.get k' :=
  StorageMap.getD_insert ..

theorem get_insert_of_ne (h : k' ≠ k) : (m.insert k v).get k' = m.get k' := by
  rw [get_insert, if_neg h]

variable {m v w}

theorem mem_insert (hrank : Function.Injective rank) :
    w ∈ (m.insert k v).get k' ↔ (k' = k ∧ w = v) ∨ w ∈ m.get k' := by
  rw [get_insert]
  split
  · next h =>
      subst h
      rw [mem_insertSorted hrank]
      simp
  · next h => simp [h]

/-- What is inserted anew is one more value. -/
theorem get_insert_perm (hrank : Function.Injective rank) (h : v ∉ m.get k) :
    ((m.insert k v).get k).Perm (v :: m.get k) := by
  refine (List.perm_ext_iff_of_nodup ((m.insert k v).nodup_get k)
    (List.nodup_cons.mpr ⟨h, m.nodup_get k⟩)).mpr fun w => ?_
  rw [mem_insert hrank, List.mem_cons]
  simp

end Multimap

/-! ## Byte strings -/

def bytesRank {n : Nat} (bytes : Bytes n) : List Nat := bytes.toList.map UInt8.toNat

theorem bytesRank_length {n : Nat} (bytes : Bytes n) : (bytesRank bytes).length = n := by
  rw [bytesRank, List.length_map, Vector.length_toList]

theorem map_toNat_inj {bs bs' : List UInt8} (h : bs.map UInt8.toNat = bs'.map UInt8.toNat) :
    bs = bs' :=
  List.map_injective_iff.mpr (fun _ _ => UInt8.toNat_inj.mp) h

theorem bytesRank_injective (n : Nat) : Function.Injective (bytesRank (n := n)) := by
  intro a b h
  exact Vector.toList_inj.mp (map_toNat_inj h)

end Timechain
