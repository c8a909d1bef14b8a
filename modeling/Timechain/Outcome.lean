import Mathlib.Logic.Basic

/-!
# Code that returns early

A function that works on `&mut self` and returns a `Result` leaves the
state as far as it came: at its end or where a `?` returned early. A panic
leaves nothing. `Outcome` is how such a function ends, `bind` is `?`, and
`each` a `for` loop whose body may return from the function.

`Ends Q E` is the postcondition of such code: `Q` where it returned, `E`
where it returned early. The rules follow the code: a loop has an
invariant that may speak of what has been visited (`Ends.each`).
-/

namespace Timechain

inductive Outcome (σ : Type) where
  | ok (s : σ)
  | error (s : σ)
  | panic
deriving DecidableEq

namespace Outcome

variable {σ α : Type} {Q Q' E E' : σ → Prop} {x : Outcome σ} {f : σ → Outcome σ}

def bind : Outcome σ → (σ → Outcome σ) → Outcome σ
  | .ok s, f => f s
  | .error s, _ => .error s
  | .panic, _ => .panic

def each (f : σ → α → Outcome σ) : List α → σ → Outcome σ
  | [], s => .ok s
  | a :: as, s => (f s a).bind (each f as)

/-- The state that is left, unless the program is gone. -/
def state? : Outcome σ → Option σ
  | .ok s => some s
  | .error s => some s
  | .panic => none

def isOk : Outcome σ → Bool
  | .ok _ => true
  | _ => false

theorem exists_of_isOk (h : x.isOk = true) : ∃ s, x = .ok s := by
  cases x with
  | ok s => exact ⟨s, rfl⟩
  | error s => cases h
  | panic => cases h

def Ends (Q E : σ → Prop) : Outcome σ → Prop
  | .ok s => Q s
  | .error s => E s
  | .panic => True

theorem Ends.mono (h : x.Ends Q E) (hok : ∀ s, Q s → Q' s) (herr : ∀ s, E s → E' s) :
    x.Ends Q' E' := by
  cases x with
  | ok s => exact hok s h
  | error s => exact herr s h
  | panic => trivial

theorem Ends.and (h : x.Ends Q E) (h' : x.Ends Q' E') :
    x.Ends (fun s => Q s ∧ Q' s) (fun s => E s ∧ E' s) := by
  cases x with
  | ok s => exact ⟨h, h'⟩
  | error s => exact ⟨h, h'⟩
  | panic => trivial

theorem Ends.bind (h : x.Ends Q E) (hf : ∀ s, Q s → (f s).Ends Q' E) : (x.bind f).Ends Q' E := by
  cases x with
  | ok s => exact hf s h
  | error s => exact h
  | panic => trivial

/-- The rule for loops. The invariant speaks of the elements visited. -/
theorem Ends.each {f : σ → α → Outcome σ} {I : List α → σ → Prop} {as : List α}
    (hstep : ∀ done, ∀ a ∈ as, ∀ s, I done s → (f s a).Ends (I (done ++ [a])) E) {s : σ}
    (h : I [] s) : (Outcome.each f as s).Ends (I as) E := by
  have hrest : ∀ (rest done : List α) (s : σ), rest ⊆ as → I done s →
      (Outcome.each f rest s).Ends (I (done ++ rest)) E := by
    intro rest
    induction rest with
    | nil =>
        intro done s _ hs
        rw [List.append_nil]
        exact hs
    | cons a rest ih =>
        intro done s hsub hs
        refine Ends.bind (hstep done a (hsub List.mem_cons_self) s hs) fun s' hs' => ?_
        rw [List.append_cons]
        exact ih _ s' (fun b hb => hsub (List.mem_cons_of_mem a hb)) hs'
  exact hrest as [] s (List.Subset.refl as) h

theorem Ends.state (h : x.Ends Q Q) {s : σ} (hs : x.state? = some s) : Q s := by
  cases x with
  | ok s' =>
      cases hs
      exact h
  | error s' =>
      cases hs
      exact h
  | panic => cases hs

end Outcome

end Timechain
