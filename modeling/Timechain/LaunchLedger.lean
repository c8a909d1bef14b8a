import Timechain.LaunchPallet

/-!
# The launch ledger

All stages are listed in the code, one entry for each version. A runtime
upgrade compiles the part of the ledger that was not executed yet and runs
it (`pallets/launch/src/ledger.rs`). The version of the last stage that was
executed is kept on chain.

The versions are natural numbers here; a ledger up to the largest version of
the source's type does not compile there.
-/

namespace Timechain

namespace Launch

variable {σ : Type}

/-! ## Model -/

/-- Issuance per allocation. -/
abbrev AllocationTracker : Type := Vector Nat 12

namespace AllocationTracker

def new : AllocationTracker := Vector.replicate 12 0

def per (tracker : AllocationTracker) (source : Allocation) : Except Panic Nat :=
  Pallet.okOr tracker[source.index]? .indexOutOfBounds

def add (cfg : Config σ) (tracker : AllocationTracker) (source : Allocation) (amount : Nat) :
    Except Panic AllocationTracker := do
  let issued ← tracker.per source
  let issued ← fitting (addChecked cfg.overflowChecks 128 issued amount)
  return tracker.setIfInBounds source.index issued

/-- A round of `check`, for the allocation with an index. -/
def checkAllocation (cfg : Config σ) (s : State σ) (isExact : Bool) (tracker : AllocationTracker)
    (valid : Bool) (index : Nat) : Except Panic Bool := do
  let alloc := Allocation.fromIndex index
  let issued ← tracker.per alloc
  let valid := valid && issued ≤ alloc.total
  let remaining ← fitting (subChecked cfg.overflowChecks 128 alloc.total issued)
  let free := cfg.currency.freeBalance s.balances (alloc.accountId cfg)
  return valid && if isExact then remaining = free else remaining ≤ free

/-- Whether the virtual wallets hold what has not been issued. -/
def check (cfg : Config σ) (s : State σ) (isExact : Bool) (tracker : AllocationTracker) :
    Except Panic Bool :=
  (List.range' 1 (Allocation.numOf - 1)).foldlM (checkAllocation cfg s isExact tracker) true

end AllocationTracker

/-- An entry of the ledger. -/
structure LaunchStage where
  version : Nat
  source : Allocation
  amount : Nat
  stage : Stage

/-- The stages to execute, and what was issued before them. -/
structure LaunchLedger where
  tracker : AllocationTracker
  stages : List LaunchStage

namespace LaunchLedger

/-- A round of `compile`, for the entry at an index. -/
def compileEntry (cfg : Config σ) (ledger : List LaunchStage) (onChain : Nat)
    (plan : LaunchLedger) (s : State σ) (index : Nat) :
    Except Panic (Except Error LaunchLedger × State σ) :=
  match ledger[index]? with
  | none => .ok (.error .stageMissing, s)
  | some entry =>
      if entry.version ≠ index then .ok (.error .stageVersionMissmatch, s)
      else if entry.source = .size then .ok (.error .stageIssuanceMissmatch, s)
      else if entry.version < onChain then do
        let tracker ← plan.tracker.add cfg entry.source entry.amount
        return (.ok { plan with tracker := tracker }, s)
      else if entry.version = onChain then do
        let tracker ← plan.tracker.add cfg entry.source entry.amount
        let valid ← tracker.check cfg s true
        return (if valid then .ok { plan with tracker := tracker }
          else .error .totalIssuanceExceeded, s)
      else if !entry.stage.isExecutable then .ok (.error .stageRetired, s)
      else do
        let (sum, s) ← entry.stage.sum cfg s
        return (if sum = entry.amount then .ok { plan with stages := plan.stages ++ [entry] }
          else .error .stageIssuanceMissmatch, s)

def compileEntries (cfg : Config σ) (ledger : List LaunchStage) (onChain : Nat) :
    List Nat → LaunchLedger → State σ → Except Panic (Except Error LaunchLedger × State σ)
  | [], plan, s => .ok (.ok plan, s)
  | index :: indices, plan, s => do
      let (result, s) ← compileEntry cfg ledger onChain plan s index
      match result with
      | .ok plan => compileEntries cfg ledger onChain indices plan s
      | .error e => return (.error e, s)

/-- Checks the ledger up to the launch version, and collects the stages
after the one on chain. -/
def compile (cfg : Config σ) (launchVersion : Nat) (ledger : List LaunchStage) (s : State σ) :
    Except Panic (Except Error LaunchLedger × State σ) :=
  compileEntries cfg ledger s.stageVersion (List.range (launchVersion + 1)) ⟨.new, []⟩ s

/-- A round of `run`, and whether it goes on. -/
def runStage (cfg : Config σ) (tracker : AllocationTracker) (s : State σ) (entry : LaunchStage) :
    Except Panic (Bool × AllocationTracker × State σ) := do
  if cfg.debugAssertions && entry.version != s.stageVersion + 1 then throw .debugAssert
  let s ← entry.stage.execute cfg entry.source s
  let s := { s with stageVersion := entry.version }
  let hash := entry.stage.hash cfg
  let tracker ← tracker.add cfg entry.source entry.amount
  if ← tracker.check cfg s false then
    return (true, tracker, s.depositEvent (.stageExecuted entry.version hash))
  else
    return (false, tracker, s.depositEvent (.stageExceededIssuance entry.version hash))

def runStages (cfg : Config σ) :
    List LaunchStage → AllocationTracker → State σ → Except Panic (State σ)
  | [], _, s => .ok s
  | entry :: entries, tracker, s => do
      let (valid, tracker, s) ← runStage cfg tracker s entry
      if valid then runStages cfg entries tracker s else return s

/-- Executes the stages, up to one that issues too much. -/
def run (cfg : Config σ) (plan : LaunchLedger) (s : State σ) : Except Panic (State σ) :=
  runStages cfg plan.stages plan.tracker s

end LaunchLedger

def onRuntimeUpgrade (cfg : Config σ) (launchVersion : Nat) (ledger : List LaunchStage)
    (s : State σ) : Except Panic (State σ) := do
  let (result, s) ← LaunchLedger.compile cfg launchVersion ledger s
  match result with
  | .ok plan => plan.run cfg s
  | .error e => return s.depositEvent (.ledgerInvalid e)

/-- What happens to the chain: a runtime upgrade, or anything else that
changes balances and claims. -/
inductive Input (σ : Type) where
  | upgrade (cfg : Config σ) (launchVersion : Nat) (ledger : List LaunchStage)
  | block (balances : σ) (store : Airdrop.Store)

def step (s : State σ) : Input σ → Option (State σ)
  | .upgrade cfg launchVersion ledger => (onRuntimeUpgrade cfg launchVersion ledger s).toOption
  | .block balances store => some ((s.setBalances balances).setStore store)

/-! ## Versions -/

/-- No stage is executed. -/
structure Quiet (s s' : State σ) : Prop where
  version : s'.stageVersion = s.stageVersion
  executed : s'.executed = s.executed

theorem Quiet.refl (s : State σ) : Quiet s s := ⟨rfl, rfl⟩

theorem Quiet.trans {s s' s'' : State σ} (h : Quiet s s') (h' : Quiet s' s'') : Quiet s s'' :=
  ⟨h'.version.trans h.version, h'.executed.trans h.executed⟩

section Quiet

variable {cfg : Config σ} {s s' : State σ}

theorem quiet_report {events : List Event} (h : ∀ event ∈ events, event.executed = none) :
    Quiet s (s.report events) := by
  refine ⟨rfl, ?_⟩
  rw [State.executed, State.report, List.filterMap_append, List.filterMap_eq_nil_iff.mpr h,
    List.append_nil]
  rfl

theorem quiet_event {event : Event} (h : event.executed = none) :
    Quiet s (s.depositEvent event) :=
  quiet_report (List.forall_mem_singleton.mpr h)

theorem quiet_acts (h : Relation.ReflTransGen (Acts cfg) s s') : Quiet s s' := by
  induction h with
  | refl => exact .refl s
  | tail _ hact ih =>
      refine ih.trans ?_
      cases hact with
      | report h => exact quiet_report h
      | transfer | lock | unlock | move => exact ⟨rfl, rfl⟩

theorem mintGrant_quiet {source : Allocation} {grant : Grant}
    (h : AirdropMintStage.mintGrant cfg source s grant = .ok s') : Quiet s s' := by
  rw [AirdropMintStage.mintGrant] at h
  split at h
  · cases h
    exact quiet_event rfl
  · next balances _ =>
    have hburnt : Quiet s (s.setBalances balances) := ⟨rfl, rfl⟩
    refine hburnt.trans ?_
    dsimp only at h
    split at h
    · obtain ⟨store, -, h⟩ := bind_ok h
      cases h
      exact ⟨rfl, rfl⟩
    all_goals
      cases h
      exact quiet_event rfl

theorem execute_quiet {source : Allocation} {stage : Stage}
    (h : stage.execute cfg source s = .ok s') : Quiet s s' := by
  by_cases hmints : ∃ raw, stage = .airdropFromUnlocked raw
  · obtain ⟨raw, rfl⟩ := hmints
    have hparse : Quiet s (AirdropMintStage.parse cfg raw s).2 := quiet_acts (mintParse_acts raw)
    refine hparse.trans ?_
    exact foldlM_ok_rule (P := Quiet _) (fun hround hs => hs.trans (mintGrant_quiet hround)) h
      (.refl _)
  · exact quiet_acts (execute_acts (not_exists.mp hmints) h)

theorem sum_quiet {stage : Stage} {sum : Nat} (h : stage.sum cfg s = .ok (sum, s')) :
    Quiet s s' := by
  cases stage with
  | retired =>
      cases h
      exact .refl s
  | depositFromUnlocked raw =>
      obtain ⟨total, -, h⟩ := bind_ok h
      cases h
      exact quiet_acts (parseWithSchedule_acts raw)
  | depositAsVested raw =>
      obtain ⟨total, -, h⟩ := bind_ok h
      cases h
      exact quiet_acts (depositParse_acts raw)
  | airdropFromUnlocked raw =>
      obtain ⟨total, -, h⟩ := bind_ok h
      cases h
      exact quiet_acts (mintParse_acts raw)
  | airdropTransfer raw =>
      cases h
      exact quiet_acts (transferParse_acts raw)

end Quiet

/-! ## Compiling -/

theorem filter_range_lt (v n : Nat) :
    (List.range (n + 1)).filter (v < ·) = List.range' (v + 1) (n - v) := by
  induction n with
  | zero => simp
  | succ n ih =>
      rw [List.range_succ, List.filter_append, ih]
      by_cases h : v < n + 1
      · have hn : n + 1 - v = n - v + 1 := by omega
        have hlast : v + 1 + 1 * (n - v) = n + 1 := by omega
        rw [hn, List.range'_concat, hlast, List.filter_singleton, decide_eq_true h]
        rfl
      · have hn : n - v = 0 := by omega
        have hn' : n + 1 - v = 0 := by omega
        simp [hn, hn', h]

namespace LaunchLedger

section Compile

variable {cfg : Config σ} {ledger : List LaunchStage} {onChain : Nat} {plan plan' : LaunchLedger}
  {s s' : State σ}

/-- An entry that is accepted has its index as version, and is executed when
the chain is not there yet. -/
theorem compileEntry_spec {index : Nat} {result : Except Error LaunchLedger}
    (h : compileEntry cfg ledger onChain plan s index = .ok (result, s')) :
    Quiet s s' ∧ ∀ plan', result = .ok plan' →
      ∃ entry, ledger[index]? = some entry ∧ entry.version = index ∧
        plan'.stages = plan.stages ++ if onChain < index then [entry] else [] := by
  have hrefused {e : Error} : ∀ plan', (Except.error e : Except Error LaunchLedger) = .ok plan' →
      ∃ entry, ledger[index]? = some entry ∧ entry.version = index ∧
        plan'.stages = plan.stages ++ if onChain < index then [entry] else [] := by
    rintro _ ⟨⟩
  rw [compileEntry] at h
  split at h
  · cases h
    exact ⟨.refl s, hrefused⟩
  next entry hentry =>
  split at h
  · cases h
    exact ⟨.refl s, hrefused⟩
  next hversion =>
  replace hversion : entry.version = index := not_not.mp hversion
  split at h
  · cases h
    exact ⟨.refl s, hrefused⟩
  split at h
  · next hlt =>
    obtain ⟨tracker, -, h⟩ := bind_ok h
    cases h
    refine ⟨.refl s, ?_⟩
    rintro _ ⟨⟩
    exact ⟨entry, hentry, hversion, by rw [if_neg (by omega), List.append_nil]⟩
  split at h
  · next heq =>
    obtain ⟨tracker, -, h⟩ := bind_ok h
    obtain ⟨valid, -, h⟩ := bind_ok h
    cases h
    refine ⟨.refl s, fun plan' hplan => ?_⟩
    split at hplan
    · cases hplan
      exact ⟨entry, hentry, hversion, by rw [if_neg (by omega), List.append_nil]⟩
    · cases hplan
  split at h
  · cases h
    exact ⟨.refl s, hrefused⟩
  · next hnlt hne _ =>
    obtain ⟨⟨sum, s₁⟩, hsum, h⟩ := bind_ok h
    cases h
    refine ⟨sum_quiet hsum, fun plan' hplan => ?_⟩
    split at hplan
    · cases hplan
      exact ⟨entry, hentry, hversion, by rw [if_pos (by omega)]⟩
    · cases hplan

theorem compileEntries_quiet {indices : List Nat} {result : Except Error LaunchLedger}
    (h : compileEntries cfg ledger onChain indices plan s = .ok (result, s')) : Quiet s s' := by
  induction indices generalizing plan s with
  | nil =>
      cases h
      exact .refl _
  | cons index indices ih =>
      obtain ⟨⟨entryResult, s₁⟩, hentry, h⟩ := bind_ok h
      have hquiet := (compileEntry_spec hentry).1
      cases entryResult with
      | ok plan₁ => exact hquiet.trans (ih h)
      | error e =>
          cases h
          exact hquiet

theorem compileEntries_ok {indices : List Nat}
    (h : compileEntries cfg ledger onChain indices plan s = .ok (.ok plan', s')) :
    ∃ new, plan'.stages = plan.stages ++ new ∧
      new.map some = (indices.filter (onChain < ·)).map (ledger[·]?) ∧
      new.map LaunchStage.version = indices.filter (onChain < ·) := by
  induction indices generalizing plan s with
  | nil =>
      cases h
      exact ⟨[], (List.append_nil _).symm, rfl, rfl⟩
  | cons index indices ih =>
      obtain ⟨⟨result, s₁⟩, hentry, h⟩ := bind_ok h
      cases result with
      | error e => cases h
      | ok plan₁ =>
          obtain ⟨entry, hget, hversion, hstages⟩ := (compileEntry_spec hentry).2 plan₁ rfl
          obtain ⟨new, hnew, hsome, hversions⟩ := ih h
          rw [hstages] at hnew
          by_cases hlt : onChain < index
          · have hfilter : (index :: indices).filter (onChain < ·) =
                index :: indices.filter (onChain < ·) :=
              List.filter_cons_of_pos (by simpa using hlt)
            rw [if_pos hlt, List.append_assoc] at hnew
            rw [hfilter]
            refine ⟨entry :: new, hnew, ?_, ?_⟩
            · rw [List.map_cons, List.map_cons, hsome, hget]
            · rw [List.map_cons, hversions, hversion]
          · rw [if_neg hlt, List.append_nil] at hnew
            rw [List.filter_cons_of_neg (by simpa using hlt)]
            exact ⟨new, hnew, hsome, hversions⟩

end Compile

/-- The plan is made of the entries after the version on chain. -/
theorem compile_ok {cfg : Config σ} {launchVersion : Nat} {ledger : List LaunchStage}
    {plan : LaunchLedger} {s s' : State σ}
    (h : compile cfg launchVersion ledger s = .ok (.ok plan, s')) :
    plan.stages.map some =
      (List.range' (s.stageVersion + 1) (launchVersion - s.stageVersion)).map (ledger[·]?) ∧
    plan.stages.map LaunchStage.version =
      List.range' (s.stageVersion + 1) (launchVersion - s.stageVersion) := by
  obtain ⟨new, hstages, hsome, hversions⟩ := compileEntries_ok h
  rw [filter_range_lt] at hsome hversions
  rw [hstages]
  exact ⟨hsome, hversions⟩

/-! ## Running -/

/-- The stages are executed, and the allocations pass the check after each
of them. -/
inductive Passes (cfg : Config σ) :
    AllocationTracker → State σ → List LaunchStage → AllocationTracker → State σ → Prop
  | nil {tracker s} : Passes cfg tracker s [] tracker s
  | cons {tracker s entry entries tracker₁ s₁ tracker₂ s₂}
      (hround : runStage cfg tracker s entry = .ok (true, tracker₁, s₁))
      (hrest : Passes cfg tracker₁ s₁ entries tracker₂ s₂) :
      Passes cfg tracker s (entry :: entries) tracker₂ s₂

section Running

variable {cfg : Config σ} {tracker tracker' : AllocationTracker} {s s' : State σ}

theorem executed_depositEvent (s : State σ) {event : Event} {version : Nat}
    (h : event.executed = some version) :
    (s.depositEvent event).executed = s.executed ++ [version] := by
  rw [State.executed, State.depositEvent, List.filterMap_append]
  simp [State.executed, h]

theorem runStage_spec {entry : LaunchStage} {valid : Bool}
    (h : runStage cfg tracker s entry = .ok (valid, tracker', s')) :
    s'.stageVersion = entry.version ∧ s'.executed = s.executed ++ [entry.version] := by
  rw [runStage] at h
  split at h
  · cases h
  obtain ⟨s₁, hexecute, h⟩ := bind_ok h
  obtain ⟨tracker₁, -, h⟩ := bind_ok h
  obtain ⟨passed, -, h⟩ := bind_ok h
  have hlog := (execute_quiet hexecute).executed
  have hevent : ∀ event : Event, event.executed = some entry.version →
      (State.depositEvent { s₁ with stageVersion := entry.version } event).executed =
        s.executed ++ [entry.version] := by
    intro event hevent
    rw [executed_depositEvent _ hevent, ← hlog]
    rfl
  split at h
  · cases h
    exact ⟨rfl, hevent _ rfl⟩
  · cases h
    exact ⟨rfl, hevent _ rfl⟩

/-- The assertion of `run`: the version is the next one. -/
theorem passes_next {pre post : List LaunchStage} {entry : LaunchStage} {n : Nat}
    (h : Passes cfg tracker s pre tracker' s')
    (hversions : (pre ++ entry :: post).map LaunchStage.version =
      List.range' (s.stageVersion + 1) n) :
    entry.version = s'.stageVersion + 1 := by
  induction h generalizing n with
  | nil =>
      cases n with
      | zero => cases hversions
      | succ n => exact (List.cons.inj hversions).1
  | cons hround _ ih =>
      cases n with
      | zero => cases hversions
      | succ n =>
          obtain ⟨hhead, htail⟩ := List.cons.inj hversions
          refine ih (n := n) ?_
          rw [(runStage_spec hround).1, hhead]
          exact htail

theorem passes_version {entries : List LaunchStage} {n : Nat}
    (h : Passes cfg tracker s entries tracker' s')
    (hversions : entries.map LaunchStage.version = List.range' (s.stageVersion + 1) n) :
    s'.stageVersion = s.stageVersion + n := by
  induction h generalizing n with
  | nil =>
      cases n with
      | zero => rfl
      | succ n => cases hversions
  | cons hround _ ih =>
      cases n with
      | zero => cases hversions
      | succ n =>
          obtain ⟨hhead, htail⟩ := List.cons.inj hversions
          have hnext := (runStage_spec hround).1.trans hhead
          have hlast := ih (n := n) (by rw [hnext]; exact htail)
          omega

/-- All stages pass, or the last one executed is the first that does not. -/
theorem runStages_passes {entries : List LaunchStage}
    (h : runStages cfg entries tracker s = .ok s') :
    (∃ tracker', Passes cfg tracker s entries tracker' s') ∨
    ∃ pre entry post tracker₁ s₁ tracker', entries = pre ++ entry :: post ∧
      Passes cfg tracker s pre tracker₁ s₁ ∧
      runStage cfg tracker₁ s₁ entry = .ok (false, tracker', s') := by
  induction entries generalizing tracker s with
  | nil =>
      cases h
      exact .inl ⟨tracker, .nil⟩
  | cons entry entries ih =>
      obtain ⟨⟨valid, tracker₁, s₁⟩, hround, h⟩ := bind_ok h
      cases valid with
      | false =>
          cases h
          exact .inr ⟨[], entry, entries, tracker, s, tracker₁, rfl, .nil, hround⟩
      | true =>
          rcases ih h with ⟨tracker', hpasses⟩ | ⟨pre, e, post, t, s₂, t', rfl, hpre, hlast⟩
          · exact .inl ⟨tracker', .cons hround hpasses⟩
          · exact .inr ⟨entry :: pre, e, post, t, s₂, t', rfl, .cons hround hpre, hlast⟩

end Running

end LaunchLedger

/-! ## Upgrades -/

/-- Stages are executed in the order of their versions, each from the
version before it. -/
structure Executes (s s' : State σ) : Prop where
  le : s.stageVersion ≤ s'.stageVersion
  executed : s'.executed =
    s.executed ++ List.range' (s.stageVersion + 1) (s'.stageVersion - s.stageVersion)

theorem Quiet.executes {s s' : State σ} (h : Quiet s s') : Executes s s' :=
  ⟨h.version.ge, by rw [h.version, h.executed, Nat.sub_self, List.range'_zero, List.append_nil]⟩

theorem Executes.trans {s s' s'' : State σ} (h : Executes s s') (h' : Executes s' s'') :
    Executes s s'' := by
  have hle := h.le
  have hle' := h'.le
  refine ⟨hle.trans hle', ?_⟩
  have hstart : s'.stageVersion + 1 =
      s.stageVersion + 1 + 1 * (s'.stageVersion - s.stageVersion) := by omega
  have hlength : s''.stageVersion - s.stageVersion =
      s'.stageVersion - s.stageVersion + (s''.stageVersion - s'.stageVersion) := by omega
  rw [h'.executed, h.executed, List.append_assoc, hstart, List.range'_append, ← hlength]

namespace LaunchLedger

theorem runStage_executes {cfg : Config σ} {tracker tracker' : AllocationTracker}
    {s s' : State σ} {entry : LaunchStage} {valid : Bool}
    (h : runStage cfg tracker s entry = .ok (valid, tracker', s'))
    (hversion : entry.version = s.stageVersion + 1) : Executes s s' := by
  obtain ⟨hv, hlog⟩ := runStage_spec h
  rw [hversion] at hv hlog
  refine ⟨by omega, ?_⟩
  rw [hlog, hv, Nat.add_sub_cancel_left]
  rfl

theorem runStages_executes {cfg : Config σ} {entries : List LaunchStage}
    {tracker : AllocationTracker} {s s' : State σ} {n : Nat}
    (h : runStages cfg entries tracker s = .ok s')
    (hversions : entries.map LaunchStage.version = List.range' (s.stageVersion + 1) n) :
    Executes s s' := by
  induction entries generalizing tracker s n with
  | nil =>
      cases h
      exact (Quiet.refl _).executes
  | cons entry entries ih =>
      cases n with
      | zero => cases hversions
      | succ n =>
          obtain ⟨hhead, htail⟩ := List.cons.inj hversions
          obtain ⟨⟨valid, tracker₁, s₁⟩, hround, h⟩ := bind_ok h
          have hfirst := runStage_executes hround hhead
          cases valid with
          | false =>
              cases h
              exact hfirst
          | true =>
              refine hfirst.trans (ih (n := n) h ?_)
              rw [(runStage_spec hround).1, hhead]
              exact htail

end LaunchLedger

theorem onRuntimeUpgrade_executes {cfg : Config σ} {launchVersion : Nat}
    {ledger : List LaunchStage} {s s' : State σ}
    (h : onRuntimeUpgrade cfg launchVersion ledger s = .ok s') : Executes s s' := by
  obtain ⟨⟨result, s₁⟩, hcompile, h⟩ := bind_ok h
  have hquiet := LaunchLedger.compileEntries_quiet hcompile
  refine hquiet.executes.trans ?_
  cases result with
  | error e =>
      cases h
      exact (quiet_event rfl).executes
  | ok plan =>
      have hversions := (LaunchLedger.compile_ok hcompile).2
      rw [← hquiet.version] at hversions
      exact LaunchLedger.runStages_executes h hversions

theorem step_executes {s s' : State σ} {input : Input σ} (h : step s input = some s') :
    Executes s s' := by
  cases input with
  | upgrade cfg launchVersion ledger =>
      rw [step] at h
      cases hupgrade : onRuntimeUpgrade cfg launchVersion ledger s with
      | error panic =>
          rw [hupgrade] at h
          cases h
      | ok t =>
          rw [hupgrade] at h
          cases h
          exact onRuntimeUpgrade_executes hupgrade
  | block balances store =>
      cases h
      exact Quiet.executes ⟨rfl, rfl⟩

/-- A retired stage, a stage that mints a claim and one that deposits. -/
def exampleLedger : List LaunchStage :=
  [⟨0, .ecosystem, 0, .retired⟩, ⟨1, .airdrop, 30, .airdropFromUnlocked [⟨⟨"ab", 30⟩, none⟩]⟩,
    ⟨2, .ecosystem, 50, .depositFromUnlocked [⟨⟨"abc", 50⟩, none⟩]⟩]

/-- Full wallets, before any stage. -/
def exampleGenesis : State (Wallets AccountId) where
  store := { claims := ∅, total := 0, vesting := ∅, events := [] }
  balances :=
    { free := (List.range' 1 11).foldl (fun free i =>
        free.insert ((Allocation.fromIndex i).accountId exampleConfig)
          (Allocation.fromIndex i).total) ∅
      vesting := ∅ }
  stageVersion := 0
  events := []

/-- Two upgrades: the second executes the stage the first did not reach. -/
def exampleInputs : List (Input (Wallets AccountId)) :=
  [.upgrade exampleConfig 1 exampleLedger, .upgrade exampleConfig 2 exampleLedger]

def exampleUpgraded : State (Wallets AccountId) := Run.endState step exampleGenesis exampleInputs

theorem exampleUpgraded_run :
    Run step (fun _ _ => True) exampleGenesis exampleInputs exampleUpgraded :=
  Run.to_endState (fun _ _ _ => trivial) (by decide +kernel)

def exampleCompiled : Except Error LaunchLedger × State (Wallets AccountId) :=
  (LaunchLedger.compile exampleConfig 2 exampleLedger exampleGenesis).toOption.getD
    (.error .stageMissing, exampleGenesis)

def examplePlan : LaunchLedger := exampleCompiled.1.toOption.getD ⟨.new, []⟩

theorem examplePlan_eq : LaunchLedger.compile exampleConfig 2 exampleLedger exampleGenesis =
    .ok (.ok examplePlan, exampleCompiled.2) := by
  have hcompiled : LaunchLedger.compile exampleConfig 2 exampleLedger exampleGenesis =
      .ok exampleCompiled := ok_getD (by decide +kernel)
  have hplan : exampleCompiled.1 = .ok examplePlan := ok_getD (by decide +kernel)
  rw [hcompiled, ← hplan]

end Launch

end Timechain
