import Mathlib.Logic.Function.Basic

/-!
# Machines with outputs

A machine takes an input in every state and answers it. `trace` pairs each
input of a run with its answer. Two machines that stay related answer the
same (`trace_eq_of_related`); the relation may speak of the inputs still to
come, which is how a bound on a whole run reaches its single steps.

A `family` is one machine per name, side by side. What is said about one
name is what its own machine says to its own inputs (`trace_family_filter`).
-/

namespace Timechain

namespace Transducer

variable {σ τ ι ω ν : Type}

/-- The inputs, each with its answer. -/
def trace (step : σ → ι → ω × σ) : σ → List ι → List (ι × ω)
  | _, [] => []
  | s, i :: is => (i, (step s i).1) :: trace step (step s i).2 is

/-- The state behind the inputs. -/
def after (step : σ → ι → ω × σ) (s : σ) (is : List ι) : σ := is.foldl (fun s i => (step s i).2) s

theorem trace_eq_of_related {step : σ → ι → ω × σ} {step' : τ → ι → ω × τ}
    {R : List ι → σ → τ → Prop}
    (hstep : ∀ {i is s t}, R (i :: is) s t →
      (step s i).1 = (step' t i).1 ∧ R is (step s i).2 (step' t i).2)
    {is : List ι} {s : σ} {t : τ} (h : R is s t) : trace step s is = trace step' t is := by
  induction is generalizing s t with
  | nil => rfl
  | cons i is ih =>
      obtain ⟨hout, hnext⟩ := hstep h
      rw [trace, trace, hout, ih hnext]

variable [DecidableEq ν]

/-- One machine per name; an input names the machine it is for. -/
def family (step : σ → ι → ω × σ) (s : ν → σ) (i : ν × ι) : ω × (ν → σ) :=
  ((step (s i.1) i.2).1, Function.update s i.1 (step (s i.1) i.2).2)

/-- The answers for one name do not depend on the others: only its own
state and its own inputs count. -/
theorem trace_family_filter (step : σ → ι → ω × σ) (n : ν) (is : List (ν × ι)) {s t : ν → σ}
    (h : s n = t n) :
    (trace (family step) s is).filter (fun e => e.1.1 = n) =
      trace (family step) t (is.filter fun i => i.1 = n) := by
  induction is generalizing s t with
  | nil => rfl
  | cons i is ih =>
      by_cases hi : i.1 = n
      · subst hi
        have hstate : (family step s i).2 i.1 = (family step t i).2 i.1 := by
          simp only [family, Function.update_self, h]
        rw [List.filter_cons_of_pos (by simp), trace, trace, List.filter_cons_of_pos (by simp),
          ih hstate]
        simp only [family, h]
      · have hstate : (family step s i).2 n = t n := by
          rw [← h]
          exact Function.update_of_ne (Ne.symm hi) ..
        rw [List.filter_cons_of_neg (by simpa using hi), trace,
          List.filter_cons_of_neg (by simpa using hi), ih hstate]

end Transducer

end Timechain
