import Mathlib.Logic.Relation
import Timechain.TasksBoard

/-!
# The docket of batches

What the tasks pallet keeps about batches, without its storage: a batch
is started with a task that is to submit it, it is pending until its
task fails or a gateway reports it executed, a failed one may be
restarted with another task, and finished tasks may be removed together
with their batch.

A `Move` is one such change. The guards restrict four of them, because
the results below need different ones:

- `Linked` (an unfinished task is the task of its batch) needs that a
  batch is restarted only when its task has finished, and that a task is
  removed only when its batch has not failed and has no unfinished task
  left;
- `Over` (an executed batch stays neither pending nor failed) needs that
  the batch is not restarted and that no task fails for it. That its task
  stays finished, so that it cannot fail, is `Idle`, and needs that the
  batch is not reopened either.
-/

namespace Timechain

structure Docket (T B : Type) where
  /-- Ids handed out so far. -/
  known : T → Prop
  started : B → Prop
  job : T → Option (Job B)
  done : T → Prop
  /-- The task that is to submit a batch. -/
  task : B → Option T
  message : B → Prop
  pending : B → Prop
  failed : B → Prop

namespace Docket

open Function (update update_apply)

variable {T B : Type}

/-! ## The invariant -/

structure Inv (d : Docket T B) : Prop where
  known_of_job : ∀ {t}, d.job t ≠ none → d.known t
  known_of_done : ∀ {t}, d.done t → d.known t
  started_of_job : ∀ {t b}, d.job t = some (.submit b) → d.started b
  linked : ∀ {b t}, d.task b = some t → d.job t = some (.submit b)
  message_iff : ∀ {b}, d.message b ↔ d.task b ≠ none

namespace Inv

variable {d : Docket T B} {t : T} {b b' : B}

/-- Two batches have no task in common. -/
theorem task_inj (h : Inv d) (ht : d.task b = some t) (ht' : d.task b' = some t) : b = b' := by
  have heq := (h.linked ht).symm.trans (h.linked ht')
  cases heq
  rfl

theorem known_of_some (h : Inv d) {j : Job B} (ht : d.job t = some j) : d.known t :=
  h.known_of_job (by rw [ht]; exact Option.some_ne_none j)

theorem task_known (h : Inv d) (ht : d.task b = some t) : d.known t :=
  h.known_of_some (h.linked ht)

theorem of_done (h : Inv d) {done : T → Prop} {pending failed : B → Prop}
    (hdone : ∀ t, done t → d.known t) :
    Inv { d with done := done, pending := pending, failed := failed } where
  known_of_job := h.known_of_job
  known_of_done := fun hd => hdone _ hd
  started_of_job := h.started_of_job
  linked := h.linked
  message_iff := h.message_iff

end Inv

/-! ## Moves -/

section Moves

variable [DecidableEq T] [DecidableEq B]

def create (d : Docket T B) (t : T) (j : Job B) : Docket T B :=
  { d with
    known := fun t' => t' = t ∨ d.known t'
    job := update d.job t (some j) }

def start (d : Docket T B) (b : B) (t : T) : Docket T B :=
  { d.create t (.submit b) with
    started := fun b' => b' = b ∨ d.started b'
    task := update d.task b (some t)
    message := fun b' => b' = b ∨ d.message b'
    pending := fun b' => b' = b ∨ d.pending b' }

def restart (d : Docket T B) (b : B) (t : T) : Docket T B :=
  { d.create t (.submit b) with
    task := update d.task b (some t)
    pending := fun b' => b' = b ∨ d.pending b'
    failed := fun b' => b' ≠ b ∧ d.failed b' }

def finish (d : Docket T B) (t : T) : Docket T B := { d with done := fun t' => t' = t ∨ d.done t' }

/-- The task of the batch, if it has one, has finished. -/
def execute (d : Docket T B) (b : B) : Docket T B :=
  { d with
    pending := fun b' => b' ≠ b ∧ d.pending b'
    done := fun t => d.task b = some t ∨ d.done t }

def fail (d : Docket T B) (t : T) (b : B) : Docket T B :=
  { d.finish t with
    pending := fun b' => b' ≠ b ∧ d.pending b'
    failed := fun b' => b' = b ∨ d.failed b' }

def reopen (d : Docket T B) (b : B) : Docket T B :=
  { d with
    failed := fun b' => b' ≠ b ∧ d.failed b'
    done := fun t => d.task b ≠ some t ∧ d.done t }

/-- The batch of the task goes with it. -/
def remove (d : Docket T B) (t : T) : Docket T B :=
  { d with
    job := update d.job t none
    done := fun t' => t' ≠ t ∧ d.done t'
    task := fun b => if d.job t = some (.submit b) then none else d.task b
    message := fun b => d.job t ≠ some (.submit b) ∧ d.message b }

structure Guards (T B : Type) where
  restart : Docket T B → B → Prop
  fail : Docket T B → T → B → Prop
  reopen : Docket T B → B → Prop
  remove : Docket T B → T → Prop

/-- Anything goes. -/
def free : Guards T B := ⟨fun _ _ => True, fun _ _ _ => True, fun _ _ => True, fun _ _ => True⟩

inductive Move (g : Guards T B) (d : Docket T B) : Docket T B → Prop
  | read {t} : ¬d.known t → Move g d (d.create t .read)
  | start {b t} : ¬d.started b → ¬d.known t → Move g d (d.start b t)
  | restart {b t₀ t} : d.task b = some t₀ → ¬d.known t → g.restart d b → Move g d (d.restart b t)
  | finish {t} : d.job t = some .read → Move g d (d.finish t)
  | execute (b) : Move g d (d.execute b)
  | fail {t b} : d.job t = some (.submit b) → ¬d.done t → g.fail d t b → Move g d (d.fail t b)
  | reopen {b} : g.reopen d b → Move g d (d.reopen b)
  | remove {t} : d.done t → g.remove d t → Move g d (d.remove t)

namespace Inv

variable {g : Guards T B} {d d' : Docket T B} {t : T} {b : B}

omit [DecidableEq B] in
theorem create (h : Inv d) (hfresh : ¬d.known t) {j : Job B}
    (hj : ∀ b, j = .submit b → d.started b) : Inv (d.create t j) where
  known_of_job {t'} ht' := by
    by_cases heq : t' = t
    · exact Or.inl heq
    · simp only [Docket.create, update_apply, if_neg heq] at ht'
      exact Or.inr (h.known_of_job ht')
  known_of_done hd := Or.inr (h.known_of_done hd)
  started_of_job {t' b} ht' := by
    simp only [Docket.create, update_apply] at ht'
    split at ht'
    · exact hj b (Option.some.inj ht')
    · exact h.started_of_job ht'
  linked {b t'} ht' := by
    have hne : t' ≠ t := fun heq => hfresh (heq ▸ h.task_known ht')
    simp only [Docket.create, update_apply, if_neg hne]
    exact h.linked ht'
  message_iff := h.message_iff

omit [DecidableEq T] in
/-- A task for the batch becomes the task of the batch. -/
theorem assign (h : Inv d) (ht : d.job t = some (.submit b)) {message pending failed : B → Prop}
    (hmessage : ∀ b', message b' ↔ b' = b ∨ d.message b') :
    Inv { d with
      task := update d.task b (some t), message := message, pending := pending,
      failed := failed } where
  known_of_job := h.known_of_job
  known_of_done := h.known_of_done
  started_of_job := h.started_of_job
  linked {b' t'} ht' := by
    simp only [update_apply] at ht'
    split at ht'
    · next heq =>
        cases ht'
        rw [heq]
        exact ht
    · exact h.linked ht'
  message_iff {b'} := by
    dsimp only
    rw [hmessage b', update_apply]
    split
    · next heq => exact iff_of_true (Or.inl heq) (Option.some_ne_none t)
    · next hne =>
        rw [or_iff_right hne]
        exact h.message_iff

theorem start (h : Inv d) (hfresh : ¬d.known t) : Inv (d.start b t) := by
  have hstarted : Inv { d with started := fun b' => b' = b ∨ d.started b' } :=
    ⟨h.known_of_job, h.known_of_done, fun hj => Or.inr (h.started_of_job hj), h.linked,
      h.message_iff⟩
  have hcreate : Inv ({ d with started := fun b' => b' = b ∨ d.started b' }.create t (.submit b)) :=
    hstarted.create hfresh fun b' hb' => by
      cases hb'
      exact Or.inl rfl
  exact hcreate.assign (Function.update_self ..) fun _ => Iff.rfl

theorem restart (h : Inv d) {t₀ : T} (htask : d.task b = some t₀) (hfresh : ¬d.known t) :
    Inv (d.restart b t) := by
  have hcreate : Inv (d.create t (.submit b)) := h.create hfresh fun b' hb' => by
    cases hb'
    exact h.started_of_job (h.linked htask)
  refine hcreate.assign (Function.update_self ..) fun b' => ⟨Or.inr, ?_⟩
  rintro (rfl | hb')
  · exact h.message_iff.mpr (by rw [htask]; exact Option.some_ne_none t₀)
  · exact hb'

theorem remove (h : Inv d) : Inv (d.remove t) where
  known_of_job {t'} ht' := by
    simp only [Docket.remove, update_apply] at ht'
    split at ht'
    · exact absurd rfl ht'
    · exact h.known_of_job ht'
  known_of_done hd := h.known_of_done hd.2
  started_of_job {t' b} ht' := by
    simp only [Docket.remove, update_apply] at ht'
    split at ht'
    · cases ht'
    · exact h.started_of_job ht'
  linked {b t'} ht' := by
    simp only [Docket.remove] at ht' ⊢
    split at ht'
    · cases ht'
    · next hb =>
        have hne : t' ≠ t := by
          rintro rfl
          exact hb (h.linked ht')
        rw [update_apply, if_neg hne]
        exact h.linked ht'
  message_iff {b} := by
    simp only [Docket.remove]
    split
    · next hb => exact iff_of_false (fun hno => hno.1 hb) (fun hno => hno rfl)
    · next hb => exact (and_iff_right hb).trans h.message_iff

theorem move (h : Inv d) (hmove : Move g d d') : Inv d' := by
  cases hmove with
  | read hfresh => exact h.create hfresh fun b hb => by cases hb
  | start _ hfresh => exact h.start hfresh
  | restart htask hfresh _ => exact h.restart htask hfresh
  | finish hjob | fail hjob _ _ =>
      refine h.of_done fun t' hd => hd.elim ?_ h.known_of_done
      rintro rfl
      exact h.known_of_some hjob
  | execute b => exact h.of_done fun t' hd => hd.elim h.task_known h.known_of_done
  | reopen _ => exact h.of_done fun t' hd => h.known_of_done hd.2
  | remove _ _ => exact h.remove

/-- What every move keeps, a sequence of moves keeps. -/
theorem moves {P : Docket T B → Prop} (hmove : ∀ {d d'}, Inv d → P d → Move g d d' → P d')
    (h : Inv d) (hd : P d) (hmoves : Relation.ReflTransGen (Move g) d d') : Inv d' ∧ P d' := by
  induction hmoves with
  | refl => exact ⟨h, hd⟩
  | tail _ hm ih => exact ⟨ih.1.move hm, hmove ih.1 ih.2 hm⟩

end Inv

/-! ## Unfinished tasks are linked -/

/-- No task of the batch is left unfinished. -/
def Idle (d : Docket T B) (b : B) : Prop := ∀ t, d.task b = some t → d.done t

structure Linked (d : Docket T B) : Prop where
  live : ∀ {t b}, d.job t = some (.submit b) → ¬d.done t → d.task b = some t
  pending : ∀ {b}, d.pending b → ∃ t, d.task b = some t ∧ ¬d.done t
  failed : ∀ {b}, d.failed b → d.task b ≠ none

def tidy : Guards T B where
  restart d b := d.Idle b
  fail _ _ _ := True
  reopen _ _ := True
  remove d t := ∀ b, d.job t = some (.submit b) → ¬d.failed b ∧ d.Idle b

namespace Linked

variable {d d' : Docket T B} {t : T} {b : B}

/-- A new task takes over a batch that has no unfinished one. -/
theorem assign (h : Linked d) (hinv : Inv d) (hfresh : ¬d.known t) (hidle : d.Idle b)
    {started message failed : B → Prop} (hfailed : ∀ b', b' ≠ b → failed b' → d.failed b') :
    Linked { d.create t (.submit b) with
      started := started, task := update d.task b (some t), message := message,
      pending := fun b' => b' = b ∨ d.pending b', failed := failed } where
  live {t' b'} hjob hopen := by
    simp only [Docket.create, update_apply] at hjob ⊢
    split at hjob
    · next ht =>
        cases hjob
        rw [if_pos rfl, ht]
    · have htask := h.live hjob hopen
      -- an unfinished task of `b` itself would be left behind
      have hne : b' ≠ b := by
        rintro rfl
        exact hopen (hidle t' htask)
      rw [if_neg hne]
      exact htask
  pending {b'} hb' := by
    simp only [update_apply]
    split
    · exact ⟨t, rfl, fun hd => hfresh (hinv.known_of_done hd)⟩
    · next hne => exact h.pending (hb'.resolve_left hne)
  failed {b'} hb' := by
    simp only [update_apply]
    split
    · exact Option.some_ne_none t
    · next hne => exact h.failed (hfailed b' hne hb')

omit [DecidableEq B] in
theorem read (h : Linked d) : Linked (d.create t .read) where
  live {t' b} hjob hopen := by
    simp only [Docket.create, update_apply] at hjob
    split at hjob
    · cases hjob
    · exact h.live hjob hopen
  pending := h.pending
  failed := h.failed

omit [DecidableEq T] [DecidableEq B] in
theorem finish (h : Linked d) (hinv : Inv d) (hjob : d.job t = some .read) :
    Linked (d.finish t) where
  live hjob' hopen := h.live hjob' fun hd => hopen (Or.inr hd)
  pending {b} hb := by
    obtain ⟨t', htask, hopen⟩ := h.pending hb
    refine ⟨t', htask, ?_⟩
    rintro (rfl | hd)
    · rw [hinv.linked htask] at hjob
      cases hjob
    · exact hopen hd
  failed := h.failed

omit [DecidableEq T] [DecidableEq B] in
theorem execute (h : Linked d) (hinv : Inv d) : Linked (d.execute b) where
  live hjob hopen := h.live hjob fun hd => hopen (Or.inr hd)
  pending {b'} hb' := by
    obtain ⟨t, htask, hopen⟩ := h.pending hb'.2
    refine ⟨t, htask, ?_⟩
    rintro (ht | hd)
    · exact hb'.1 (hinv.task_inj htask ht)
    · exact hopen hd
  failed := h.failed

omit [DecidableEq T] [DecidableEq B] in
theorem fail (h : Linked d) (hinv : Inv d) (hjob : d.job t = some (.submit b))
    (hopen : ¬d.done t) : Linked (d.fail t b) where
  live hjob' hopen' := h.live hjob' fun hd => hopen' (Or.inr hd)
  pending {b'} hb' := by
    obtain ⟨t', htask, hopen'⟩ := h.pending hb'.2
    refine ⟨t', htask, ?_⟩
    rintro (rfl | hd)
    · rw [hinv.linked htask] at hjob
      cases hjob
      exact hb'.1 rfl
    · exact hopen' hd
  failed {b'} hb' := by
    rcases hb' with rfl | hb'
    · show d.task b' ≠ none
      rw [h.live hjob hopen]
      exact Option.some_ne_none t
    · exact h.failed hb'

omit [DecidableEq B] in
theorem reopen (h : Linked d) (hinv : Inv d) : Linked (d.reopen b) where
  live {t b'} hjob hopen := by
    by_cases htask : d.task b = some t
    · have heq := (hinv.linked htask).symm.trans hjob
      cases heq
      exact htask
    · exact h.live hjob fun hd => hopen ⟨htask, hd⟩
  pending {b'} hb' := by
    obtain ⟨t, htask, hopen⟩ := h.pending hb'
    exact ⟨t, htask, fun hd => hopen hd.2⟩
  failed hb' := h.failed hb'.2

theorem remove (h : Linked d)
    (hsafe : ∀ b, d.job t = some (.submit b) → ¬d.failed b ∧ d.Idle b) :
    Linked (d.remove t) where
  live {t' b} hjob hopen := by
    simp only [Docket.remove, update_apply] at hjob ⊢
    split at hjob
    · cases hjob
    · next hne =>
        have hopen' : ¬d.done t' := fun hd => hopen ⟨hne, hd⟩
        have htask := h.live hjob hopen'
        rw [if_neg fun hb => hopen' ((hsafe b hb).2 t' htask)]
        exact htask
  pending {b} hb := by
    obtain ⟨t', htask, hopen⟩ := h.pending hb
    refine ⟨t', ?_, fun hd => hopen hd.2⟩
    simp only [Docket.remove]
    rw [if_neg fun hb => hopen ((hsafe b hb).2 t' htask)]
    exact htask
  failed {b} hb := by
    simp only [Docket.remove]
    rw [if_neg fun hjob => (hsafe b hjob).1 hb]
    exact h.failed hb

theorem move (h : Linked d) (hinv : Inv d) (hmove : Move tidy d d') : Linked d' := by
  cases hmove with
  | read _ => exact h.read
  | start hnew hfresh =>
      refine h.assign hinv hfresh (fun t ht => ?_) fun _ _ hb' => hb'
      exact absurd (hinv.started_of_job (hinv.linked ht)) hnew
  | restart _ hfresh hidle => exact h.assign hinv hfresh hidle fun _ _ hb' => hb'.2
  | finish hjob => exact h.finish hinv hjob
  | execute b => exact h.execute hinv
  | fail hjob hopen _ => exact h.fail hinv hjob hopen
  | reopen _ => exact h.reopen hinv
  | remove _ hsafe => exact h.remove hsafe

end Linked

/-! ## Executed batches -/

structure Over (d : Docket T B) (b : B) : Prop where
  started : d.started b
  pending : ¬d.pending b
  failed : ¬d.failed b

/-- The batch is not restarted, and no task fails for it. -/
def sparing (b : B) : Guards T B where
  restart _ b' := b' ≠ b
  fail _ _ b' := b' ≠ b
  reopen _ _ := True
  remove _ _ := True

/-- Nor is it reopened. -/
def leaving (b : B) : Guards T B := { sparing b with reopen := fun _ b' => b' ≠ b }

section Over

variable {d d' : Docket T B} {b : B}

omit [DecidableEq T] [DecidableEq B] in
theorem foldl_execute (d : Docket T B) (bs : List B) :
    bs.foldl execute d =
      { d with
        pending := fun b => b ∉ bs ∧ d.pending b
        done := fun t => (∃ b ∈ bs, d.task b = some t) ∨ d.done t } := by
  induction bs generalizing d with
  | nil => simp
  | cons b bs ih =>
      rw [List.foldl_cons, ih]
      simp only [execute, List.mem_cons, not_or, and_assoc, exists_eq_or_imp, mk.injEq, true_and,
        and_true]
      exact ⟨funext fun t => propext or_left_comm |>.trans (by rw [or_assoc]),
        funext fun b' => propext and_left_comm⟩

omit [DecidableEq T] [DecidableEq B] in
theorem foldl_reopen (d : Docket T B) (bs : List B) :
    bs.foldl reopen d =
      { d with
        failed := fun b => b ∉ bs ∧ d.failed b
        done := fun t => (∀ b ∈ bs, d.task b ≠ some t) ∧ d.done t } := by
  induction bs generalizing d with
  | nil => simp
  | cons b bs ih =>
      rw [List.foldl_cons, ih]
      simp only [reopen, List.mem_cons, not_or, and_assoc, forall_eq_or_imp, mk.injEq, true_and]
      exact ⟨funext fun t => propext and_left_comm, funext fun b' => propext and_left_comm⟩

omit [DecidableEq T] [DecidableEq B] in
/-- A batch reported executed that has not failed is done with. -/
theorem foldl_execute_over {bs : List B} (hb : b ∈ bs) (hstarted : d.started b)
    (hfailed : ¬d.failed b) : Over (bs.foldl execute d) b ∧ (bs.foldl execute d).Idle b := by
  rw [foldl_execute]
  exact ⟨⟨hstarted, fun hp => hp.1 hb, hfailed⟩, fun t ht => Or.inl ⟨b, hb, ht⟩⟩

theorem Move.sparing (h : Move (leaving b) d d') : Move (sparing b) d d' := by
  cases h with
  | read hfresh => exact .read hfresh
  | start hnew hfresh => exact .start hnew hfresh
  | restart htask hfresh hne => exact .restart htask hfresh hne
  | finish hjob => exact .finish hjob
  | execute b' => exact .execute b'
  | fail hjob hopen hne => exact .fail hjob hopen hne
  | reopen _ => exact .reopen trivial
  | remove hdone _ => exact .remove hdone trivial

theorem Over.move (h : Over d b) (hmove : Move (Docket.sparing b) d d') : Over d' b := by
  cases hmove with
  | read _ | finish _ | remove _ _ => exact ⟨h.started, h.pending, h.failed⟩
  | start hnew _ =>
      refine ⟨Or.inr h.started, ?_, h.failed⟩
      rintro (rfl | hb)
      · exact hnew h.started
      · exact h.pending hb
  | restart _ _ hne =>
      exact ⟨h.started, fun hb => hb.elim (fun heq => hne heq.symm) h.pending,
        fun hb => h.failed hb.2⟩
  | execute b' => exact ⟨h.started, fun hb => h.pending hb.2, h.failed⟩
  | fail _ _ hne =>
      exact ⟨h.started, fun hb => h.pending hb.2,
        fun hb => hb.elim (fun heq => hne heq.symm) h.failed⟩
  | reopen _ => exact ⟨h.started, h.pending, fun hb => h.failed hb.2⟩

theorem Idle.move (h : d.Idle b) (hinv : Inv d) (hover : Over d b)
    (hmove : Move (leaving b) d d') : d'.Idle b := by
  intro t ht
  cases hmove with
  | read _ => exact h t ht
  | @start b' _ hnew _ =>
      have hne : b ≠ b' := by
        rintro rfl
        exact hnew hover.started
      simp only [Docket.start, update_apply, if_neg hne] at ht
      exact h t ht
  | restart _ _ hne =>
      simp only [Docket.restart, update_apply, if_neg (Ne.symm hne)] at ht
      exact h t ht
  | finish _ | execute _ | fail _ _ _ => exact Or.inr (h t ht)
  | reopen hne => exact ⟨fun ht' => hne (hinv.task_inj ht' ht), h t ht⟩
  | @remove t' _ _ =>
      simp only [Docket.remove] at ht
      split at ht
      · cases ht
      · next hb =>
          refine ⟨?_, h t ht⟩
          rintro rfl
          exact hb (hinv.linked ht)

end Over

end Moves

end Docket

end Timechain
