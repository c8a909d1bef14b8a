import Timechain.LaunchLedger

/-!
# Where a launch panics

A runtime upgrade that panics is lost, so the launch pallet reports what is
wrong with a ledger as errors and events. Two places do not.

`AllocationTracker::check` goes on computing with an allocation it has found
to be exceeded: what remains of it is negative. With overflow checks that
panics, without them the difference wraps and the result is still `false`
(`check_returns_iff`).

`DepositStage::transfer_as_vested` locks again what is left of the wallet of
an allocation. The rate of that schedule is a rounded part of the rate of the
allocation; it vanishes for a small rest, and a schedule without a rate is
refused (`transferAsVested_panics_iff`). The schedules of the grants were
checked before, so nothing else panics.
-/

namespace Timechain

namespace Launch

variable {σ : Type}

/-! ## Checking the allocations -/

namespace AllocationTracker

/-- What was issued from an allocation. -/
def issued (tracker : AllocationTracker) (source : Allocation) : Nat :=
  tracker[source.index]?.getD 0

/-- No allocation is exceeded. What is not from any allocation is not counted. -/
def Within (tracker : AllocationTracker) : Prop :=
  ∀ source, source ≠ .ignore → source ≠ .size → tracker.issued source ≤ source.total

/-- The indices `check` goes through are those of the allocations. -/
theorem within_iff (tracker : AllocationTracker) :
    tracker.Within ↔ ∀ index ∈ List.range' 1 (Allocation.numOf - 1),
      tracker.issued (Allocation.fromIndex index) ≤ (Allocation.fromIndex index).total := by
  constructor
  · intro h index hindex
    have hreal : ∀ index ∈ List.range' 1 (Allocation.numOf - 1),
        Allocation.fromIndex index ≠ .ignore ∧ Allocation.fromIndex index ≠ .size := by decide
    exact h _ (hreal index hindex).1 (hreal index hindex).2
  · intro h source hignore hsize
    have hindex : source.index ∈ List.range' 1 (Allocation.numOf - 1) := by
      revert hignore hsize
      cases source <;> decide
    have hsource : Allocation.fromIndex source.index = source := by
      revert hsize
      cases source <;> decide
    rw [← hsource]
    exact h _ hindex

theorem per_eq (tracker : AllocationTracker) {source : Allocation} (h : source ≠ .size) :
    tracker.per source = .ok (tracker.issued source) := by
  have hindex : source.index < 12 := by
    revert h
    cases source <;> decide
  rw [per, issued, Vector.getElem?_eq_getElem hindex]
  rfl

variable (cfg : Config σ) (s : State σ) (isExact : Bool) (tracker : AllocationTracker)

/-- A round, by what the subtraction gives. -/
theorem checkAllocation_eq (valid : Bool) {index : Nat}
    (h : index ∈ List.range' 1 (Allocation.numOf - 1)) :
    checkAllocation cfg s isExact tracker valid index =
      (fitting (subChecked cfg.overflowChecks 128 (Allocation.fromIndex index).total
        (tracker.issued (Allocation.fromIndex index)))).map fun remaining =>
          valid && decide (tracker.issued (Allocation.fromIndex index) ≤
              (Allocation.fromIndex index).total) &&
            if isExact then
              remaining = cfg.currency.freeBalance s.balances
                ((Allocation.fromIndex index).accountId cfg)
            else
              remaining ≤ cfg.currency.freeBalance s.balances
                ((Allocation.fromIndex index).accountId cfg) := by
  have hreal : ∀ index ∈ List.range' 1 (Allocation.numOf - 1),
      Allocation.fromIndex index ≠ .size := by decide
  rw [checkAllocation, per_eq tracker (hreal index h)]
  rfl

section Rounds

variable (valid : Bool) {index : Nat}
  (hindex : index ∈ List.range' 1 (Allocation.numOf - 1))

include hindex

theorem checkAllocation_within (h : tracker.issued (Allocation.fromIndex index) ≤
      (Allocation.fromIndex index).total) :
    ∃ valid', checkAllocation cfg s isExact tracker valid index = .ok valid' := by
  rw [checkAllocation_eq _ _ _ _ _ hindex, subChecked_of_le h]
  exact ⟨_, rfl⟩

theorem checkAllocation_overflow (hchecks : cfg.overflowChecks = true)
    (h : (Allocation.fromIndex index).total < tracker.issued (Allocation.fromIndex index)) :
    checkAllocation cfg s isExact tracker valid index = .error .overflow := by
  rw [checkAllocation_eq _ _ _ _ _ hindex, subChecked, if_neg (Nat.not_le.mpr h), if_pos hchecks]
  rfl

/-- Without overflow checks a round returns, and keeps what was found. -/
theorem checkAllocation_wraps (hchecks : cfg.overflowChecks = false) :
    ∃ valid', checkAllocation cfg s isExact tracker valid index = .ok valid' ∧
      (valid' = true → valid = true ∧ tracker.issued (Allocation.fromIndex index) ≤
        (Allocation.fromIndex index).total) := by
  obtain ⟨remaining, hremaining⟩ : ∃ remaining, subChecked cfg.overflowChecks 128
      (Allocation.fromIndex index).total (tracker.issued (Allocation.fromIndex index)) =
        some remaining := by
    rw [subChecked, hchecks]
    split
    · exact ⟨_, rfl⟩
    · exact ⟨_, rfl⟩
  rw [checkAllocation_eq _ _ _ _ _ hindex, hremaining]
  refine ⟨_, rfl, fun hvalid => ?_⟩
  rw [Bool.and_eq_true, Bool.and_eq_true, decide_eq_true_eq] at hvalid
  exact hvalid.1

end Rounds

section Loop

variable {indices : List Nat}
  (hindices : ∀ index ∈ indices, index ∈ List.range' 1 (Allocation.numOf - 1))

include hindices

theorem check_loop_within
    (h : ∀ index ∈ indices, tracker.issued (Allocation.fromIndex index) ≤
      (Allocation.fromIndex index).total) (valid : Bool) :
    ∃ valid', indices.foldlM (checkAllocation cfg s isExact tracker) valid = .ok valid' := by
  induction indices generalizing valid with
  | nil => exact ⟨valid, rfl⟩
  | cons index indices ih =>
      obtain ⟨valid₁, hround⟩ := checkAllocation_within cfg s isExact tracker valid
        (hindices index List.mem_cons_self) (h index List.mem_cons_self)
      rw [List.foldlM_cons, hround]
      exact ih (fun i hi => hindices i (List.mem_cons_of_mem _ hi))
        (fun i hi => h i (List.mem_cons_of_mem _ hi)) valid₁

/-- The first allocation that is exceeded ends the check. -/
theorem check_loop_overflow (hchecks : cfg.overflowChecks = true)
    (h : ∃ index ∈ indices, (Allocation.fromIndex index).total <
      tracker.issued (Allocation.fromIndex index)) (valid : Bool) :
    indices.foldlM (checkAllocation cfg s isExact tracker) valid = .error .overflow := by
  induction indices generalizing valid with
  | nil =>
      obtain ⟨_, hmem, -⟩ := h
      cases hmem
  | cons index indices ih =>
      have hindex := hindices index List.mem_cons_self
      rw [List.foldlM_cons]
      by_cases hhead : tracker.issued (Allocation.fromIndex index) ≤
          (Allocation.fromIndex index).total
      · obtain ⟨valid₁, hround⟩ := checkAllocation_within cfg s isExact tracker valid hindex hhead
        rw [hround]
        refine ih (fun i hi => hindices i (List.mem_cons_of_mem _ hi)) ?_ valid₁
        obtain ⟨later, hmem, hlater⟩ := h
        rcases List.mem_cons.mp hmem with rfl | hmem
        · omega
        · exact ⟨later, hmem, hlater⟩
      · rw [checkAllocation_overflow _ _ _ _ _ hindex hchecks (Nat.lt_of_not_le hhead)]
        rfl

theorem check_loop_wraps (hchecks : cfg.overflowChecks = false) (valid : Bool) :
    ∃ valid', indices.foldlM (checkAllocation cfg s isExact tracker) valid = .ok valid' ∧
      (valid' = true → valid = true ∧ ∀ index ∈ indices,
        tracker.issued (Allocation.fromIndex index) ≤ (Allocation.fromIndex index).total) := by
  induction indices generalizing valid with
  | nil => exact ⟨valid, rfl, fun h => ⟨h, fun _ hmem => by cases hmem⟩⟩
  | cons index indices ih =>
      obtain ⟨valid₁, hround, hkeeps⟩ := checkAllocation_wraps cfg s isExact tracker valid
        (hindices index List.mem_cons_self) hchecks
      obtain ⟨valid', hloop, hrest⟩ :=
        ih (fun i hi => hindices i (List.mem_cons_of_mem _ hi)) valid₁
      refine ⟨valid', by rw [List.foldlM_cons, hround]; exact hloop, fun hvalid => ?_⟩
      obtain ⟨hvalid₁, hall⟩ := hrest hvalid
      obtain ⟨hfirst, hhead⟩ := hkeeps hvalid₁
      exact ⟨hfirst, List.forall_mem_cons.mpr ⟨hhead, hall⟩⟩

end Loop

/-- The check returns in every build exactly if no allocation is exceeded. If
one is, it panics with overflow checks; without them a subtraction wraps and
the check reports the ledger all the same. -/
theorem check_returns_iff (cfg : Config σ) (s : State σ) (isExact : Bool)
    (tracker : AllocationTracker) :
    ((∃ valid, tracker.check { cfg with overflowChecks := true } s isExact = .ok valid) ↔
      tracker.Within) ∧
    (¬ tracker.Within →
      tracker.check { cfg with overflowChecks := true } s isExact = .error .overflow ∧
      tracker.check { cfg with overflowChecks := false } s isExact = .ok false) := by
  have hsame : ∀ index ∈ List.range' 1 (Allocation.numOf - 1),
      index ∈ List.range' 1 (Allocation.numOf - 1) := fun _ h => h
  have hexceeds : ¬ tracker.Within → ∃ index ∈ List.range' 1 (Allocation.numOf - 1),
      (Allocation.fromIndex index).total < tracker.issued (Allocation.fromIndex index) := by
    rw [within_iff]
    intro h
    simpa only [not_forall, Nat.not_le, exists_prop] using h
  refine ⟨⟨fun ⟨valid, hvalid⟩ => not_not.mp fun h => ?_, fun h => ?_⟩, fun h => ⟨?_, ?_⟩⟩
  · rw [check, check_loop_overflow _ _ _ _ hsame rfl (hexceeds h)] at hvalid
    cases hvalid
  · exact check_loop_within _ _ _ _ hsame ((within_iff tracker).mp h) true
  · exact check_loop_overflow _ _ _ _ hsame rfl (hexceeds h) true
  · obtain ⟨valid, hloop, hkeeps⟩ := check_loop_wraps { cfg with overflowChecks := false } s isExact
      tracker hsame rfl true
    cases valid with
    | false => exact hloop
    | true => exact absurd ((within_iff tracker).mpr (hkeeps rfl).2) h

end AllocationTracker

/-- A stage that issued one token more than the seed allocation has. -/
def exceededLedger : List LaunchStage := [⟨0, .seed, Allocation.total .seed + 1, .retired⟩]

/-- The ledger is what the check is there for, and compiling it panics. -/
theorem compile_exceeded_panics :
    (AllocationTracker.add exampleConfig .new .seed (Allocation.total .seed + 1)).toOption.map
      (fun tracker => decide (tracker.issued .seed ≤ Allocation.total .seed)) = some false ∧
    LaunchLedger.compile exampleConfig 0 exceededLedger exampleGenesis = .error .overflow := by
  have hpanic : (LaunchLedger.compile exampleConfig 0 exceededLedger exampleGenesis).map
      (fun _ => ()) = .error .overflow := by decide +kernel
  refine ⟨by decide +kernel, ?_⟩
  cases hcompile : LaunchLedger.compile exampleConfig 0 exceededLedger exampleGenesis with
  | error panic =>
      rw [hcompile] at hpanic
      cases hpanic
      rfl
  | ok result =>
      rw [hcompile] at hpanic
      cases hpanic

/-! ## Locking the rest -/

namespace DepositStage

variable {cfg : Config σ} {source : Allocation} {s : State σ}

theorem addSchedule_of_some {who : AccountId} {info : VestingInfo} {balances : σ}
    (h : cfg.currency.addVestingSchedule s.balances who info = some balances) (message : String) :
    addSchedule cfg s who info message = .ok (s.setBalances balances) := by
  simp only [addSchedule, h]

/-- A grant has been checked: its schedule is accepted after the transfer. -/
theorem transferVested_ok (hvests : cfg.currency.Vests) (source : Allocation) (s : State σ)
    (grant : Grant) :
    ∃ s', transferVested cfg source s grant = .ok s' := by
  rw [transferVested]
  split
  · exact ⟨_, rfl⟩
  · split
    · exact ⟨_, rfl⟩
    · next info _ =>
        split
        · exact ⟨_, rfl⟩
        · next hcan =>
            split
            · exact ⟨_, rfl⟩
            · next balances htransfer =>
                have hadd : (cfg.currency.addVestingSchedule balances grant.target info).isSome := by
                  rw [hvests.isSome_add, hvests.canAdd_transfer htransfer]
                  exact .inr (by simpa using hcan)
                obtain ⟨balances', hbalances⟩ := Option.isSome_iff_exists.mp hadd
                exact ⟨_, addSchedule_of_some (s := s.setBalances balances) hbalances _⟩

theorem transfers_ok (hvests : cfg.currency.Vests) (source : Allocation) (grants : List Grant)
    (s : State σ) :
    ∃ s', grants.foldlM (transferVested cfg source) s = .ok s' := by
  induction grants generalizing s with
  | nil => exact ⟨s, rfl⟩
  | cons grant grants ih =>
      obtain ⟨s₁, hs₁⟩ := transferVested_ok hvests source s grant
      obtain ⟨s', hs'⟩ := ih s₁
      refine ⟨s', ?_⟩
      rw [List.foldlM_cons, hs₁]
      exact hs'

/-- The rest cannot be locked: there is some, and its schedule has no rate or
no place. -/
def Stuck (cfg : Config σ) (source : Allocation) (s : State σ) : Prop :=
  ∃ info, source.scheduleRel cfg (cfg.currency.freeBalance s.balances (source.accountId cfg)) =
      some info ∧ info.locked ≠ 0 ∧
    (info.perBlock = 0 ∨
      cfg.currency.canAddVestingSchedule s.balances (source.accountId cfg) info = false)

def relockMessage : String := "Previous vesting schedule war removed; qed"

theorem relock_of_none (h : source.scheduleRel cfg
      (cfg.currency.freeBalance s.balances (source.accountId cfg)) = none) :
    relock cfg source s = .ok (s.depositEvent (.depositSourceMissmatch source.subId)) := by
  simp only [relock, h]

theorem relock_of_some {info : VestingInfo} (h : source.scheduleRel cfg
      (cfg.currency.freeBalance s.balances (source.accountId cfg)) = some info) :
    relock cfg source s = addSchedule cfg s (source.accountId cfg) info relockMessage := by
  simp only [relock, h, relockMessage]

theorem addSchedule_panics_iff {who : AccountId} {info : VestingInfo} {message : String}
    (hvests : cfg.currency.Vests) (panic : Panic) :
    addSchedule cfg s who info message = .error panic ↔
      panic = .expect message ∧ info.locked ≠ 0 ∧
        (info.perBlock = 0 ∨ cfg.currency.canAddVestingSchedule s.balances who info = false) := by
  have hrefused : cfg.currency.addVestingSchedule s.balances who info = none ↔
      info.locked ≠ 0 ∧ (info.perBlock = 0 ∨
        cfg.currency.canAddVestingSchedule s.balances who info = false) := by
    rw [← Option.not_isSome_iff_eq_none, hvests.isSome_add, not_or, Bool.not_eq_true]
    refine and_congr_right fun hlocked => ⟨.inr, ?_⟩
    rintro (hrate | hcan)
    · exact Bool.eq_false_iff.mpr fun hcan => hvests.perBlock_ne_zero hcan hlocked hrate
    · exact hcan
  rw [← hrefused, addSchedule]
  cases hadd : cfg.currency.addVestingSchedule s.balances who info with
  | none =>
      rw [Except.error.injEq, eq_comm]
      exact (and_iff_left rfl).symm
  | some balances =>
      refine ⟨fun h => (by cases h), ?_⟩
      rintro ⟨-, hnone⟩
      cases hnone

theorem relock_panics_iff (hvests : cfg.currency.Vests) (panic : Panic) :
    relock cfg source s = .error panic ↔ panic = .expect relockMessage ∧ Stuck cfg source s := by
  unfold Stuck
  cases hrel : source.scheduleRel cfg
      (cfg.currency.freeBalance s.balances (source.accountId cfg)) with
  | none =>
      rw [relock_of_none hrel]
      refine ⟨fun h => (by cases h), ?_⟩
      rintro ⟨-, _, hinfo, -⟩
      cases hinfo
  | some info =>
      rw [relock_of_some hrel, addSchedule_panics_iff hvests]
      refine and_congr_right fun _ => ⟨fun h => ⟨info, rfl, h⟩, ?_⟩
      rintro ⟨_, hinfo, h⟩
      cases hinfo
      exact h

/-- The seed allocation as a whole in its wallet, locked. -/
def lockedWallet : State (Wallets AccountId) :=
  { exampleGenesis with
    balances := { exampleGenesis.balances with
      vesting := (∅ : StorageMap AccountId VestingInfo).insert
        (Allocation.accountId exampleConfig .seed) ⟨Allocation.total .seed, 1, 0⟩ } }

/-- All but 1000 of the smallest units. -/
def nearlyAll : List Grant := [⟨Vector.replicate 32 7, Allocation.total .seed - 1000, none⟩]

end DepositStage


end Launch

end Timechain
