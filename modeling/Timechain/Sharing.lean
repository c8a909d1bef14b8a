import Mathlib.LinearAlgebra.Lagrange

/-!
# Sharing by polynomials

A dealer hides a scalar as the constant coefficient of a polynomial, gives
out values of the polynomial as shares and publishes its coefficients as
multiples of a generator. Everything here is about a polynomial as a list
of coefficients, lowest first, and its value by Horner's rule. The rule
is stated for coefficients in a module: with scalars it gives a share, with
points of a group what the published coefficients say about the share, and
over the polynomial ring the polynomial itself.

Horner's rule is linear in the coefficients in two ways. A published
polynomial has the published share as its value (`horner_map_smul`), and
the sum of the lists has the sum of the values (`horner_sumLists`), so
several dealers act as one whose polynomial is the sum of theirs.
-/

namespace Timechain

namespace Sharing

open Polynomial

section Horner

variable {K M : Type*} [CommRing K] [AddCommGroup M] [Module K M]

def horner (x : K) : List M → M
  | [] => 0
  | c :: cs => c + x • horner x cs

@[simp] theorem horner_nil (x : K) : horner x ([] : List M) = 0 := rfl

@[simp] theorem horner_cons (x : K) (c : M) (cs : List M) :
    horner x (c :: cs) = c + x • horner x cs := rfl

/-- The value at zero is the constant coefficient. -/
theorem horner_zero {cs : List M} {c : M} (h : cs.head? = some c) : horner (0 : K) cs = c := by
  cases cs with
  | nil => cases h
  | cons d cs =>
      cases h
      rw [horner_cons, zero_smul, add_zero]

theorem horner_map_smul (x : K) (cs : List K) (g : M) :
    horner x (cs.map (· • g)) = horner x cs • g := by
  induction cs with
  | nil => rw [List.map_nil, horner_nil, horner_nil, zero_smul]
  | cons c cs ih =>
      rw [List.map_cons, horner_cons, horner_cons, ih, add_smul, smul_assoc]

theorem horner_zipWith_add (x : K) {cs ds : List M} (h : cs.length = ds.length) :
    horner x (List.zipWith (· + ·) cs ds) = horner x cs + horner x ds := by
  induction cs generalizing ds with
  | nil =>
      cases List.length_eq_zero_iff.mp h.symm
      simp
  | cons c cs ih =>
      cases ds with
      | nil => cases h
      | cons d ds =>
          rw [List.zipWith_cons_cons, horner_cons, horner_cons, horner_cons,
            ih (Nat.succ.inj h), smul_add, add_add_add_comm]

theorem horner_replicate_zero (x : K) (n : Nat) : horner x (List.replicate n (0 : M)) = 0 := by
  induction n with
  | zero => rfl
  | succ n ih => rw [List.replicate_succ, horner_cons, ih, smul_zero, add_zero]

/-- The coordinate-wise sum of lists of length `n`. -/
def sumLists (n : Nat) (css : List (List M)) : List M :=
  css.foldr (List.zipWith (· + ·)) (List.replicate n 0)

theorem length_sumLists {n : Nat} {css : List (List M)} (h : ∀ cs ∈ css, cs.length = n) :
    (sumLists n css).length = n := by
  induction css with
  | nil => exact List.length_replicate
  | cons cs css ih =>
      have hcs := h cs List.mem_cons_self
      have hcss := ih fun ds hds => h ds (List.mem_cons_of_mem _ hds)
      rw [sumLists] at hcss ⊢
      rw [List.foldr_cons, List.length_zipWith, hcs, hcss, Nat.min_self]

theorem zipWith_add_assoc (xs ys zs : List M) :
    List.zipWith (· + ·) (List.zipWith (· + ·) xs ys) zs =
      List.zipWith (· + ·) xs (List.zipWith (· + ·) ys zs) := by
  induction xs generalizing ys zs with
  | nil => rfl
  | cons x xs ih =>
      cases ys with
      | nil => rfl
      | cons y ys =>
          cases zs with
          | nil => rfl
          | cons z zs => exact congrArg₂ List.cons (add_assoc x y z) (ih ys zs)

theorem zipWith_add_replicate_zero {n : Nat} {xs : List M} (h : xs.length = n) :
    List.zipWith (· + ·) xs (List.replicate n 0) = xs := by
  subst h
  induction xs with
  | nil => rfl
  | cons x xs ih => exact congrArg₂ List.cons (add_zero x) ih

theorem sumLists_perm {n : Nat} {css dss : List (List M)} (h : css.Perm dss) :
    sumLists n css = sumLists n dss := by
  have hcomm : LeftCommutative (List.zipWith (· + ·) : List M → List M → List M) := by
    refine ⟨fun xs ys zs => ?_⟩
    have hxy : List.zipWith (· + ·) xs ys = List.zipWith (· + ·) ys xs :=
      List.zipWith_comm_of_comm add_comm
    rw [← zipWith_add_assoc, hxy, zipWith_add_assoc]
  exact h.foldr_eq _

theorem horner_sumLists (x : K) {n : Nat} {css : List (List M)} (h : ∀ cs ∈ css, cs.length = n) :
    horner x (sumLists n css) = (css.map (horner x)).sum := by
  induction css with
  | nil => exact horner_replicate_zero x n
  | cons cs css ih =>
      have htail : ∀ ds ∈ css, ds.length = n := fun ds hds => h ds (List.mem_cons_of_mem _ hds)
      have hlen : cs.length = (sumLists n css).length :=
        (h cs List.mem_cons_self).trans (length_sumLists htail).symm
      rw [List.map_cons, List.sum_cons, ← ih htail]
      exact horner_zipWith_add x hlen

end Horner

section Poly

variable {K : Type*} [CommRing K]

noncomputable def poly (cs : List K) : K[X] := horner (X : K[X]) (cs.map fun c => (C c : K[X]))

@[simp] theorem poly_cons (c : K) (cs : List K) : poly (c :: cs) = C c + X * poly cs := rfl

theorem eval_poly (x : K) (cs : List K) : (poly cs).eval x = horner x cs := by
  induction cs with
  | nil => exact eval_zero
  | cons c cs ih =>
      rw [poly_cons, eval_add, eval_C, eval_mul, eval_X, ih, horner_cons, smul_eq_mul]

theorem coeff_poly (cs : List K) (k : Nat) : (poly cs).coeff k = cs[k]?.getD 0 := by
  induction cs generalizing k with
  | nil => exact coeff_zero k
  | cons c cs ih =>
      rw [poly_cons, coeff_add]
      cases k with
      | zero => simp
      | succ k => rw [coeff_C_succ, zero_add, coeff_X_mul, ih, List.getElem?_cons_succ]

theorem poly_mem_degreeLT {cs : List K} {n : Nat} (h : cs.length = n) :
    poly cs ∈ degreeLT K n := by
  rw [mem_degreeLT, degree_lt_iff_coeff_zero]
  intro k hk
  rw [coeff_poly, List.getElem?_eq_none (h.trans_le hk), Option.getD_none]

theorem eval_sum_poly (x : K) (css : List (List K)) :
    ((css.map poly).sum).eval x = (css.map (horner x)).sum := by
  induction css with
  | nil => exact eval_zero
  | cons cs css ih =>
      rw [List.map_cons, List.sum_cons, eval_add, eval_poly, ih, List.map_cons, List.sum_cons]

theorem sum_poly_mem_degreeLT {css : List (List K)} {n : Nat} (h : ∀ cs ∈ css, cs.length = n) :
    (css.map poly).sum ∈ degreeLT K n := by
  refine list_sum_mem fun p hp => ?_
  obtain ⟨cs, hcs, rfl⟩ := List.mem_map.mp hp
  exact poly_mem_degreeLT (h cs hcs)

end Poly

end Sharing

end Timechain
