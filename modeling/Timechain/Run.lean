import Mathlib.Logic.Relation

/-!
# Runs and invariants

A system is a partial step function on states, driven by inputs; a
panic is `none` and ends the run. `Run step ok init is s` says that `s`
is reached from `init` by the inputs `is`, each of them meeting `ok` in
the state it is applied to. A statement about every `Run` is one about
every reachable state, since every prefix of a run is a run.

One input may do many small steps. `bounded_invariant` is the rule for
those: a property kept by each small step *as long as a bound holds
afterwards* is kept by a whole sequence, provided the bound only gets
harder along it. Counters that clamp are the intended use - the bound
at the end then covers every step before it.
-/

namespace Timechain

variable {σ ι : Type}

inductive Run (step : σ → ι → Option σ) (ok : σ → ι → Prop) (init : σ) : List ι → σ → Prop
  | start : Run step ok init [] init
  | next {is : List ι} {s : σ} {i : ι} {s' : σ} : Run step ok init is s → ok s i →
      step s i = some s' → Run step ok init (is ++ [i]) s'

namespace Run

variable {step : σ → ι → Option σ} {ok ok' : σ → ι → Prop} {init : σ}

/-- The induction every safety property goes through. -/
theorem invariant {P : List ι → σ → Prop} (hinit : P [] init)
    (hstep : ∀ {is s i s'}, Run step ok init is s → P is s → ok s i → step s i = some s' →
      P (is ++ [i]) s') {is : List ι} {s : σ} (h : Run step ok init is s) : P is s := by
  induction h with
  | start => exact hinit
  | next hrun hok hs ih => exact hstep hrun ih hok hs

/-- What the inputs meet may depend on how far the run is. -/
theorem imp (himp : ∀ {is s i}, Run step ok init is s → ok s i → ok' s i) {is : List ι} {s : σ}
    (h : Run step ok init is s) : Run step ok' init is s := by
  induction h with
  | start => exact .start
  | next hrun hok hs ih => exact .next ih (himp hrun hok) hs

theorem mono (himp : ∀ s i, ok s i → ok' s i) {is : List ι} {s : σ}
    (h : Run step ok init is s) : Run step ok' init is s :=
  h.imp fun _ => himp _ _

/-- What holds of the inputs of a run may be used at each of them. -/
theorem mem {is : List ι} {s : σ} (h : Run step ok init is s) :
    Run step (fun s i => ok s i ∧ i ∈ is) init is s := by
  induction h with
  | start => exact .start
  | next _ hok hs ih =>
      refine .next (ih.mono fun _ _ hi => ⟨hi.1, List.mem_append_left _ hi.2⟩) ?_ hs
      exact ⟨hok, List.mem_append_right _ (List.mem_singleton_self _)⟩

/-- Continue a run. -/
theorem append {is js : List ι} {s s' : σ} (h : Run step ok init is s)
    (h' : Run step ok s js s') : Run step ok init (is ++ js) s' := by
  induction h' with
  | start => simpa using h
  | next _ hok hs ih =>
      rw [← List.append_assoc]
      exact .next ih hok hs

/-- A run can be computed. -/
theorem of_foldlM {is : List ι} {s : σ} (hok : ∀ s, ∀ i ∈ is, ok s i)
    (h : is.foldlM step init = some s) : Run step ok init is s := by
  induction is generalizing init with
  | nil =>
      cases h
      exact .start
  | cons i is ih =>
      obtain ⟨s₁, h₁, h₂⟩ := Option.bind_eq_some_iff.mp h
      have hfirst : Run step ok init [i] s₁ := .next .start (hok init i (List.mem_cons_self ..)) h₁
      exact hfirst.append (ih (fun s j hj => hok s j (List.mem_cons_of_mem i hj)) h₂)

/-- The same input over and over: a property indexed by how often. -/
theorem replicate {P : Nat → σ → Prop} {i : ι} {n : Nat} (hinit : P 0 init)
    (hstep : ∀ {k s}, k < n → P k s → ok s i ∧ ∃ s', step s i = some s' ∧ P (k + 1) s') :
    ∃ s, Run step ok init (List.replicate n i) s ∧ P n s := by
  induction n with
  | zero => exact ⟨init, .start, hinit⟩
  | succ n ih =>
      obtain ⟨s, hrun, hs⟩ := ih fun hk => hstep (Nat.lt_succ_of_lt hk)
      obtain ⟨hok, s', hexec, hs'⟩ := hstep (Nat.lt_succ_self n) hs
      rw [List.replicate_succ']
      exact ⟨s', .next hrun hok hexec, hs'⟩

theorem foldlM {is : List ι} {s : σ} (h : Run step ok init is s) :
    is.foldlM step init = some s := by
  induction h with
  | start => rfl
  | next _ _ hs ih =>
      rw [List.foldlM_append, ih]
      simp [hs]

/-- Inputs determine the state. -/
theorem det {is : List ι} {s s' : σ} (h : Run step ok init is s)
    (h' : Run step ok' init is s') : s = s' :=
  Option.some.inj (h.foldlM.symm.trans h'.foldlM)

/-- One party of a system: the inputs for it make a run of its own, and
the others do not touch its state. -/
theorem project {τ κ : Type} {step' : τ → κ → Option τ} {okPart : τ → κ → Prop} {f : σ → τ}
    {own : ι → Option κ}
    (hown : ∀ {s i s' k}, ok s i → step s i = some s' → own i = some k →
      okPart (f s) k ∧ step' (f s) k = some (f s'))
    (hother : ∀ {s i s'}, step s i = some s' → own i = none → f s' = f s)
    {is : List ι} {s : σ} (h : Run step ok init is s) :
    Run step' okPart (f init) (is.filterMap own) (f s) := by
  induction h with
  | start => exact .start
  | @next is s i s' _ hok hs ih =>
      rw [List.filterMap_append]
      cases hi : own i with
      | none =>
          rw [hother hs hi]
          simpa [hi] using ih
      | some k =>
          obtain ⟨hk, hstep⟩ := hown hok hs hi
          simpa [hi] using Run.next ih hk hstep

/-! Runs on concrete inputs: `endState` can be evaluated. -/

/-- The state after `is`, if none of them panics. -/
def endState (step : σ → ι → Option σ) (init : σ) (is : List ι) : σ :=
  (is.foldlM step init).getD init

theorem foldlM_eq_endState {is : List ι} (h : (is.foldlM step init).isSome = true) :
    is.foldlM step init = some (endState step init is) := by
  obtain ⟨s, hs⟩ := Option.isSome_iff_exists.mp h
  rw [endState, hs]
  rfl

theorem to_endState {is : List ι} (hok : ∀ s, ∀ i ∈ is, ok s i)
    (h : (is.foldlM step init).isSome = true) : Run step ok init is (endState step init is) :=
  of_foldlM hok (foldlM_eq_endState h)

theorem eq_endState {is : List ι} {s : σ} (h : Run step ok init is s) :
    endState step init is = s := by
  rw [endState, h.foldlM]
  rfl

/-- Inputs for which `ok` is known only where they come. -/
theorem endState_next {is : List ι} {i : ι} (hrun : Run step ok init is (endState step init is))
    (hok : ok (endState step init is) i) (h : ((is ++ [i]).foldlM step init).isSome = true) :
    Run step ok init (is ++ [i]) (endState step init (is ++ [i])) := by
  refine .next hrun hok ?_
  have hall := foldlM_eq_endState h
  rw [List.foldlM_append, hrun.foldlM] at hall
  simpa using hall

theorem endState_append {is js : List ι} (hrun : Run step ok init is (endState step init is))
    (hok : ∀ s, ∀ j ∈ js, ok s j) (h : ((is ++ js).foldlM step init).isSome = true) :
    Run step ok init (is ++ js) (endState step init (is ++ js)) := by
  refine hrun.append (of_foldlM hok ?_)
  have hall := foldlM_eq_endState h
  rw [List.foldlM_append, hrun.foldlM] at hall
  exact hall

/-- A step that refuses the inputs for which `check` fails. -/
def guarded (step : σ → ι → Option σ) (check : σ → ι → Bool) (s : σ) (i : ι) : Option σ :=
  if check s i then step s i else none

/-- What the inputs meet can be computed with the run. -/
theorem of_guarded {check : σ → ι → Bool} (hcheck : ∀ s i, check s i = true → ok s i)
    {is : List ι} (h : (is.foldlM (guarded step check) init).isSome = true) :
    Run step ok init is (endState step init is) := by
  obtain ⟨s, hs⟩ := Option.isSome_iff_exists.mp h
  have hrun : Run step ok init is s := by
    clear h
    induction is generalizing init with
    | nil =>
        cases hs
        exact .start
    | cons i is ih =>
        obtain ⟨s₁, h₁, hs⟩ := Option.bind_eq_some_iff.mp hs
        rw [guarded] at h₁
        split at h₁
        · next hi =>
            have hfirst : Run step ok init [i] s₁ := .next .start (hcheck init i hi) h₁
            exact hfirst.append (ih hs)
        · cases h₁
  rw [endState, hrun.foldlM]
  exact hrun

end Run

/-- Invariance along a sequence of small steps under a bound that is
inherited backwards. -/
theorem bounded_invariant {R : σ → σ → Prop} {B P : σ → Prop}
    (hB : ∀ {a b}, R a b → B b → B a) (hP : ∀ {a b}, R a b → B b → P a → P b) {s s' : σ}
    (h : Relation.ReflTransGen R s s') (hs' : B s') (hs : P s) : P s' := by
  induction h with
  | refl => exact hs
  | tail _ hr ih => exact hP hr hs' (ih (hB hr hs'))

/-- A fallible sequence that succeeds does so at every step. -/
theorem bind_ok {ε α β : Type} {x : Except ε α} {f : α → Except ε β} {b : β}
    (h : (x >>= f) = .ok b) : ∃ a, x = .ok a ∧ f a = .ok b := by
  cases x with
  | error e => cases h
  | ok a => exact ⟨a, rfl, h⟩

theorem ok_getD {ε α : Type} {x : Except ε α} {d : α} (h : x.toOption.isSome = true) :
    x = .ok (x.toOption.getD d) := by
  cases x with
  | error e => cases h
  | ok a => rfl

/-- The rule for a fallible loop: what every round keeps, the loop keeps. -/
theorem foldlM_ok_rule {ε σ α : Type} {f : σ → α → Except ε σ} {P : σ → Prop}
    (hstep : ∀ {s a s'}, f s a = .ok s' → P s → P s') {as : List α} {s s' : σ}
    (h : as.foldlM f s = .ok s') (hs : P s) : P s' := by
  induction as generalizing s with
  | nil =>
      cases h
      exact hs
  | cons a as ih =>
      obtain ⟨s₁, h₁, h⟩ := bind_ok (List.foldlM_cons.symm.trans h)
      exact ih h (hstep h₁ hs)

end Timechain
