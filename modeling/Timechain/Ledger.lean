import Mathlib.Data.Finset.Card
import Mathlib.Logic.Function.Basic

/-!
# Ledgers of assigned work

Who works on what, written down three times: per item of work its owner,
per owner the items held, and per owner the number of them. The three
are kept by separate writes. `Balanced` says that they agree, and the
lemmas say which operation needs what to keep them in agreement: only an
assignment has a condition, the item must have no owner.
-/

namespace Timechain

@[ext]
structure Ledger (σ τ : Type) where
  owner : τ → Option σ
  held : σ → Finset τ
  load : σ → Nat

namespace Ledger

variable {σ τ : Type}

structure Balanced (l : Ledger σ τ) : Prop where
  owner_iff : ∀ {x t}, l.owner t = some x ↔ t ∈ l.held x
  load_eq : ∀ x, l.load x = (l.held x).card

variable [DecidableEq σ] [DecidableEq τ]

def assign (l : Ledger σ τ) (x : σ) (t : τ) : Ledger σ τ where
  owner := Function.update l.owner t (some x)
  held := Function.update l.held x (insert t (l.held x))
  load := Function.update l.load x (l.load x + 1)

/-- An item without an owner is finished by nobody. -/
def finish (l : Ledger σ τ) (t : τ) : Ledger σ τ :=
  match l.owner t with
  | some x =>
      { owner := Function.update l.owner t none
        held := Function.update l.held x ((l.held x).erase t)
        load := Function.update l.load x (l.load x - 1) }
  | none => l

/-- An owner leaves: its items have no owner any more. -/
def drain (l : Ledger σ τ) (x : σ) : Ledger σ τ where
  owner t := if t ∈ l.held x then none else l.owner t
  held := Function.update l.held x ∅
  load := Function.update l.load x 0

/-- One entry in the ledger. `may` says what can be assigned to whom. -/
inductive Entry (may : σ → τ → Prop) (l : Ledger σ τ) : Ledger σ τ → Prop
  | refl : Entry may l l
  | finish (t : τ) : Entry may l (l.finish t)
  | assign {x : σ} {t : τ} : may x t → Entry may l (l.assign x t)

variable {l l' : Ledger σ τ} {x : σ} {t : τ} {may : σ → τ → Prop}

theorem Balanced.assign (h : l.Balanced) (hfree : l.owner t = none) (x : σ) :
    (l.assign x t).Balanced where
  owner_iff {y u} := by
    by_cases hu : u = t
    · subst hu
      -- nobody held `u` before
      have hnot : ∀ z, u ∉ l.held z := fun z hz => by
        rw [h.owner_iff.mpr hz] at hfree
        cases hfree
      by_cases hy : y = x
      · simp [Ledger.assign, hy]
      · simp [Ledger.assign, hy, hnot y, Ne.symm hy]
    · by_cases hy : y = x
      · simp [Ledger.assign, hu, hy, h.owner_iff]
      · simp [Ledger.assign, hu, hy, h.owner_iff]
  load_eq y := by
    by_cases hy : y = x
    · subst hy
      have hnot : t ∉ l.held y := fun hmem => by
        rw [h.owner_iff.mpr hmem] at hfree
        cases hfree
      simp [Ledger.assign, h.load_eq, hnot]
    · simp [Ledger.assign, hy, h.load_eq]

theorem Balanced.finish (h : l.Balanced) (t : τ) : (l.finish t).Balanced := by
  rw [Ledger.finish]
  split
  · next x hx =>
      have hmem : t ∈ l.held x := h.owner_iff.mp hx
      refine ⟨fun {y u} => ?_, fun y => ?_⟩
      · by_cases hu : u = t
        · subst hu
          by_cases hy : y = x
          · simp [hy]
          · have hnot : u ∉ l.held y := fun hmem' => by
              rw [h.owner_iff.mpr hmem'] at hx
              exact hy (Option.some.inj hx)
            simp [hy, hnot]
        · by_cases hy : y = x
          · simp [hu, hy, h.owner_iff]
          · simp [hu, hy, h.owner_iff]
      · by_cases hy : y = x
        · subst hy
          simp [h.load_eq, Finset.card_erase_of_mem hmem]
        · simp [hy, h.load_eq]
  · exact h

theorem Balanced.drain (h : l.Balanced) (x : σ) : (l.drain x).Balanced where
  owner_iff {y u} := by
    by_cases hu : u ∈ l.held x
    · have hx := h.owner_iff.mpr hu
      by_cases hy : y = x
      · simp [Ledger.drain, hu, hy]
      · have hnot : u ∉ l.held y := fun hmem => by
          rw [h.owner_iff.mpr hmem] at hx
          exact hy (Option.some.inj hx)
        simp [Ledger.drain, hu, hy, hnot]
    · by_cases hy : y = x
      · simp [Ledger.drain, hu, hy, h.owner_iff]
      · simp [Ledger.drain, hu, hy, h.owner_iff]
  load_eq y := by
    by_cases hy : y = x
    · simp [Ledger.drain, hy]
    · simp [Ledger.drain, hy, h.load_eq]

theorem Balanced.entry (h : l.Balanced) (hmay : ∀ {x t}, may x t → l.owner t = none)
    (hentry : l.Entry may l') : l'.Balanced := by
  cases hentry with
  | refl => exact h
  | finish t => exact h.finish t
  | assign hm => exact h.assign (hmay hm) _

theorem Entry.mono {may' : σ → τ → Prop} (hmay : ∀ x t, may x t → may' x t)
    (h : l.Entry may l') : l.Entry may' l' := by
  cases h with
  | refl => exact .refl
  | finish t => exact .finish t
  | assign hm => exact .assign (hmay _ _ hm)

/-- Who holds an item had it before, or could be assigned it. -/
theorem Entry.held (h : l.Entry may l') (hmem : t ∈ l'.held x) :
    t ∈ l.held x ∨ may x t := by
  cases h with
  | refl => exact Or.inl hmem
  | finish u =>
      refine Or.inl ?_
      rw [Ledger.finish] at hmem
      split at hmem
      · next y _ =>
          by_cases hx : x = y
          · subst hx
            simp only [Function.update_self] at hmem
            exact Finset.mem_of_mem_erase hmem
          · simpa [hx] using hmem
      · exact hmem
  | @assign y u hm =>
      by_cases hx : x = y
      · subst hx
        simp only [Ledger.assign, Function.update_self, Finset.mem_insert] at hmem
        rcases hmem with rfl | hmem
        · exact Or.inr hm
        · exact Or.inl hmem
      · exact Or.inl (by simpa [Ledger.assign, hx] using hmem)

end Ledger

end Timechain
