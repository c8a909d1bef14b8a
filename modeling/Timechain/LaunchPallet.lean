import Mathlib.Logic.Relation
import Timechain.AirdropPallet

/-!
# Launch stages

The migrations that hand out the initial tokens (`pallets/launch`). Tokens
are kept in one virtual wallet per allocation. A stage takes tokens from a
wallet and deposits them, with or without a vesting schedule, or turns them
into airdrop claims; or it moves claims.

Stages are executed by a hook: nothing is rolled back, and an entry that
fails is reported by an event while the others go on. A panic is an error of
its own kind. The conversions of the raw amounts to the balance type are the
identity in the runtime and are left out, and so are the weights.
-/

namespace Timechain

namespace Launch

inductive Panic where
  | overflow
  | indexOutOfBounds
  | debugAssert
  | expect (message : String)
deriving DecidableEq

def anlog : Nat := 10 ^ 12

def milliAnlog : Nat := anlog / 1000

inductive Allocation where
  | ignore
  | seed
  | opportunity1
  | private1
  | opportunity2
  | opportunity3
  | opportunity4
  | strategic
  | team
  | airdrop
  | initiatives
  | ecosystem
  | size
deriving DecidableEq

namespace Allocation

def index : Allocation → Nat
  | ignore => 0
  | seed => 1
  | opportunity1 => 2
  | private1 => 3
  | opportunity2 => 4
  | opportunity3 => 5
  | opportunity4 => 6
  | strategic => 7
  | team => 8
  | airdrop => 9
  | initiatives => 10
  | ecosystem => 11
  | size => 12

def numOf : Nat := size.index

def fromIndex : Nat → Allocation
  | 1 => seed
  | 2 => opportunity1
  | 3 => private1
  | 4 => opportunity2
  | 5 => opportunity3
  | 6 => opportunity4
  | 7 => strategic
  | 8 => team
  | 9 => airdrop
  | 10 => initiatives
  | 11 => ecosystem
  | _ => ignore

/-- The name of the virtual wallet. -/
def subId : Allocation → String
  | ignore | size => ""
  | seed => "seed"
  | opportunity1 => "opportunity1"
  | private1 => "private1"
  | opportunity2 => "opportunity2"
  | opportunity3 => "opportunity3"
  | opportunity4 => "opportunity4"
  | strategic => "strategic"
  | team => "team"
  | airdrop => "airdrop"
  | initiatives => "initiatives"
  | ecosystem => "ecosystem"

/-- The tokens issued for the allocation. -/
def total : Allocation → Nat
  | ignore | size => 0
  | seed => 2116870581830 * milliAnlog
  | opportunity1 => 170807453140 * milliAnlog
  | private1 => 914546375350 * milliAnlog
  | opportunity2 => 42701863290 * milliAnlog
  | opportunity3 => 53495311080 * milliAnlog
  | opportunity4 => 44418704640 * milliAnlog
  | strategic => 376857707180 * milliAnlog
  | team => 1714673910300 * milliAnlog
  | airdrop => 452898550000 * milliAnlog
  | initiatives => 1811594200000 * milliAnlog
  | ecosystem => 1359106343190 * milliAnlog

def scheduleRaw : Allocation → Option VestingInfo
  | ignore | size => none
  | seed => some ⟨2116870581830 * milliAnlog, 178512 * milliAnlog, 4586070⟩
  | opportunity1 => some ⟨170807453140 * milliAnlog, 16204 * milliAnlog, 3268470⟩
  | private1 => some ⟨914546375350 * milliAnlog, 86762 * milliAnlog, 3268470⟩
  | opportunity2 => some ⟨42701863290 * milliAnlog, 4051 * milliAnlog, 3268470⟩
  | opportunity3 => some ⟨53495311080 * milliAnlog, 6766 * milliAnlog, 3268470⟩
  | opportunity4 => some ⟨44418704640 * milliAnlog, 5618 * milliAnlog, 1950870⟩
  | strategic => some ⟨376857707180 * milliAnlog, 47669 * milliAnlog, 1950870⟩
  | team => some ⟨1714673910300 * milliAnlog, 108446 * milliAnlog, 4586070⟩
  | airdrop => none
  | initiatives => some ⟨1086956520000 * milliAnlog, 68745 * milliAnlog, 633270⟩
  | ecosystem => some ⟨679553171595 * milliAnlog, 32234 * milliAnlog, 633270⟩

end Allocation

structure RawDeposit where
  id : String
  amount : Nat
deriving DecidableEq

structure RawDepositWithSchedule extends RawDeposit where
  schedule : Option VestingInfo
deriving DecidableEq

structure RawAirdropTransfer where
  source : String
  dest : String
deriving DecidableEq

/-- A migration with the data embedded in the code. -/
inductive Stage where
  | retired
  | depositFromUnlocked (raw : List RawDepositWithSchedule)
  | depositAsVested (raw : List RawDeposit)
  | airdropFromUnlocked (raw : List RawDepositWithSchedule)
  | airdropTransfer (raw : List RawAirdropTransfer)
deriving DecidableEq

/-- Errors of the compile step. -/
inductive Error where
  | stageMissing
  | stageVersionMissmatch
  | totalIssuanceExceeded
  | stageRetired
  | stageIssuanceMissmatch
deriving DecidableEq

inductive Event where
  | ledgerInvalid (error : Error)
  | stageExceededIssuance (version : Nat) (hash : Hash)
  | stageExecuted (version : Nat) (hash : Hash)
  | depositInvalid (id : String)
  | depositSourceMissmatch (source : String)
  | depositVestingMissmatch (target : AccountId)
  | depositTooSmall (target : AccountId)
  | depositTooLarge (target : AccountId)
  | depositFailed (target : AccountId)
  | airdropMintInvalid (id : String)
  | airdropMintExists (target : AccountId)
  | airdropMintTooLarge (target : AccountId)
  | airdropMintFailed
  | airdropTransferInvalid (id : String)
  | airdropTransferMissing (source : AccountId)
  | airdropTransferExists (dest : AccountId)
  | airdropTransferFailed
deriving DecidableEq

/-- The runtime and the functions of the framework: addresses, the wallet of
an allocation, fractions in parts per billion, and hashes. -/
structure Config (σ : Type) extends Airdrop.Config σ where
  minimumDeposit : Nat
  debugAssertions : Bool
  fromSs58check : String → Option AccountId
  subAccount : String → AccountId
  fromRational : Nat → Nat → Nat
  mulPerbill : Nat → Nat → Nat
  hashOf : Stage → Hash

/-- Claims and balances, the version of the last stage executed, and the
events so far. -/
structure State (σ : Type) extends Airdrop.State σ where
  stageVersion : Nat
  events : List Event

variable {σ : Type}

def State.depositEvent (s : State σ) (event : Event) : State σ :=
  { s with events := s.events ++ [event] }

def State.setBalances (s : State σ) (balances : σ) : State σ := { s with balances := balances }

def State.setStore (s : State σ) (store : Airdrop.Store) : State σ := { s with store := store }

/-- Arithmetic that does not fit panics. -/
def fitting {α : Type} (x : Option α) : Except Panic α := Pallet.okOr x .overflow

/-- Currency issuance plus airdrop total. -/
def totalIssuance (cfg : Config σ) (s : State σ) : Except Panic Nat :=
  fitting (addChecked cfg.overflowChecks 128 (cfg.currency.totalIssuance s.balances) s.store.total)

namespace Allocation

def accountId (cfg : Config σ) (a : Allocation) : AccountId := cfg.subAccount a.subId

/-- The schedule of the allocation, scaled to a part of it. -/
def scheduleRel (cfg : Config σ) (a : Allocation) (amount : Nat) : Option VestingInfo :=
  a.scheduleRaw.map fun raw =>
    { locked := amount
      perBlock := cfg.mulPerbill (cfg.fromRational amount raw.locked) raw.perBlock
      start := raw.start }

end Allocation

/-! ## Parsing -/

/-- A deposit or a claim to mint. -/
structure Grant where
  target : AccountId
  amount : Nat
  schedule : Option VestingInfo

/-- Every entry is parsed, or reported by an event. -/
def parseEach {ρ α : Type} (parse : ρ → Except Event α) (raw : List ρ) (s : State σ) :
    List α × State σ :=
  (raw.filterMap fun details => (parse details).toOption,
    { s with events := s.events ++ raw.filterMap fun details =>
        match parse details with
        | .ok _ => none
        | .error event => some event })

def checkDeposit (cfg : Config σ) (parsed : Option Grant) (id : String) : Except Event Grant :=
  match parsed with
  | none => .error (.depositInvalid id)
  | some grant =>
      if grant.amount < cfg.minimumDeposit then .error (.depositTooSmall grant.target)
      else .ok grant

namespace DepositStage

def parseDetails (cfg : Config σ) (details : RawDeposit) : Option Grant :=
  (cfg.fromSs58check details.id).map fun target => ⟨target, details.amount, none⟩

def parse (cfg : Config σ) (raw : List RawDeposit) (s : State σ) : List Grant × State σ :=
  parseEach (fun details => checkDeposit cfg (parseDetails cfg details) details.id) raw s

def parseScheduledDetails (cfg : Config σ) (details : RawDepositWithSchedule) : Option Grant :=
  (cfg.fromSs58check details.id).map fun target => ⟨target, details.amount, details.schedule⟩

def parseWithSchedule (cfg : Config σ) (raw : List RawDepositWithSchedule) (s : State σ) :
    List Grant × State σ :=
  parseEach (fun details => checkDeposit cfg (parseScheduledDetails cfg details) details.id) raw s

end DepositStage

namespace AirdropMintStage

def parseMint (cfg : Config σ) (details : RawDepositWithSchedule) : Option Grant :=
  (cfg.fromSs58check details.id).map fun target => ⟨target, details.amount, details.schedule⟩

def parse (cfg : Config σ) (raw : List RawDepositWithSchedule) (s : State σ) :
    List Grant × State σ :=
  parseEach (fun details => Pallet.okOr (parseMint cfg details) (.airdropMintInvalid details.id))
    raw s

end AirdropMintStage

namespace AirdropTransferStage

def parseTransfer (cfg : Config σ) (details : RawAirdropTransfer) :
    Option (AccountId × AccountId) := do
  let source ← cfg.fromSs58check details.source
  let dest ← cfg.fromSs58check details.dest
  return (source, dest)

def parse (cfg : Config σ) (raw : List RawAirdropTransfer) (s : State σ) :
    List (AccountId × AccountId) × State σ :=
  parseEach (fun details =>
    Pallet.okOr (parseTransfer cfg details) (.airdropTransferInvalid details.source)) raw s

end AirdropTransferStage

/-- The tokens granted. -/
def grantTotal (cfg : Config σ) (grants : List Grant) : Except Panic Nat :=
  grants.foldlM (fun acc grant => fitting (addChecked cfg.overflowChecks 128 acc grant.amount)) 0

/-! ## Execution -/

/-- A schedule that has to be accepted. -/
def addSchedule (cfg : Config σ) (s : State σ) (who : AccountId) (info : VestingInfo)
    (message : String) : Except Panic (State σ) :=
  match cfg.currency.addVestingSchedule s.balances who info with
  | some balances => .ok (s.setBalances balances)
  | none => .error (.expect message)

namespace DepositStage

/-- A round of `transfer_unlocked`. -/
def transferGrant (cfg : Config σ) (source : Allocation) (s : State σ) (grant : Grant) :
    Except Panic (State σ) :=
  if grant.schedule.any fun info =>
      !cfg.currency.canAddVestingSchedule s.balances grant.target info then
    .ok (s.depositEvent (.depositFailed grant.target))
  else
    match cfg.currency.transfer s.balances (source.accountId cfg) grant.target grant.amount with
    | none => .ok (s.depositEvent (.depositTooLarge grant.target))
    | some balances =>
        match grant.schedule with
        | none => .ok (s.setBalances balances)
        | some info =>
            addSchedule cfg (s.setBalances balances) grant.target info
              "No other vesting schedule exists, as checked above; qed"

def transferUnlocked (cfg : Config σ) (source : Allocation) (grants : List Grant) (s : State σ) :
    Except Panic (State σ) :=
  grants.foldlM (transferGrant cfg source) s

/-- A round of `transfer_as_vested`. The allocation is the only source of
the schedule. -/
def transferVested (cfg : Config σ) (source : Allocation) (s : State σ) (grant : Grant) :
    Except Panic (State σ) :=
  if grant.schedule.isSome then
    .ok (s.depositEvent (.depositVestingMissmatch grant.target))
  else
    match source.scheduleRel cfg grant.amount with
    | none => .ok (s.depositEvent (.depositVestingMissmatch grant.target))
    | some info =>
        if !cfg.currency.canAddVestingSchedule s.balances grant.target info then
          .ok (s.depositEvent (.depositFailed grant.target))
        else
          match cfg.currency.transfer s.balances (source.accountId cfg) grant.target
              grant.amount with
          | none => .ok (s.depositEvent (.depositTooLarge grant.target))
          | some balances =>
              addSchedule cfg (s.setBalances balances) grant.target info
                "No other vesting schedule exists, as checked above; qed"

/-- What remains of the allocation is locked again. -/
def relock (cfg : Config σ) (source : Allocation) (s : State σ) : Except Panic (State σ) :=
  let account := source.accountId cfg
  match source.scheduleRel cfg (cfg.currency.freeBalance s.balances account) with
  | some info => addSchedule cfg s account info "Previous vesting schedule war removed; qed"
  | none => .ok (s.depositEvent (.depositSourceMissmatch source.subId))

def transferAsVested (cfg : Config σ) (source : Allocation) (grants : List Grant) (s : State σ) :
    Except Panic (State σ) :=
  let account := source.accountId cfg
  if cfg.currency.vestingBalance s.balances account ≠
      some (cfg.currency.freeBalance s.balances account) then
    .ok (s.depositEvent (.depositSourceMissmatch source.subId))
  else
    match cfg.currency.removeVestingSchedule s.balances account 0 with
    | none => .ok (s.depositEvent (.depositSourceMissmatch source.subId))
    | some balances => do
        let s ← grants.foldlM (transferVested cfg source) (s.setBalances balances)
        relock cfg source s

end DepositStage

namespace AirdropMintStage

/-- A round of `mint`: the tokens are burnt before the claim is minted. -/
def mintGrant (cfg : Config σ) (source : Allocation) (s : State σ) (grant : Grant) :
    Except Panic (State σ) :=
  match cfg.currency.withdraw s.balances (source.accountId cfg) grant.amount with
  | none => .ok (s.depositEvent (.airdropMintTooLarge grant.target))
  | some balances =>
      let s := s.setBalances balances
      match Airdrop.mintAirdrop cfg.toConfig s.store grant.target grant.amount grant.schedule with
      | .ok store => do
          let store ← fitting store
          return s.setStore store
      | .error .alreadyHasClaim => .ok (s.depositEvent (.airdropMintExists grant.target))
      | .error _ => .ok (s.depositEvent .airdropMintFailed)

def mint (cfg : Config σ) (source : Allocation) (grants : List Grant) (s : State σ) :
    Except Panic (State σ) :=
  grants.foldlM (mintGrant cfg source) s

end AirdropMintStage

namespace AirdropTransferStage

/-- A round of `transfer`. -/
def moveClaim (s : State σ) (claim : AccountId × AccountId) : State σ :=
  match Airdrop.moveAirdrop s.store claim.1 claim.2 with
  | .ok store => s.setStore store
  | .error .hasNoClaim => s.depositEvent (.airdropTransferMissing claim.1)
  | .error .alreadyHasClaim => s.depositEvent (.airdropTransferExists claim.2)
  | .error _ => s.depositEvent .airdropTransferFailed

def transfer (claims : List (AccountId × AccountId)) (s : State σ) : State σ :=
  claims.foldl moveClaim s

end AirdropTransferStage

namespace Stage

def isExecutable (stage : Stage) : Bool := stage != .retired

def hash (cfg : Config σ) : Stage → Hash
  | .retired => Vector.replicate 32 0
  | stage => cfg.hashOf stage

/-- The tokens the stage hands out; parsing it emits events. -/
def sum (cfg : Config σ) (stage : Stage) (s : State σ) : Except Panic (Nat × State σ) :=
  match stage with
  | .retired => .ok (0, s)
  | .depositFromUnlocked raw => do
      let (grants, s) := DepositStage.parseWithSchedule cfg raw s
      return (← grantTotal cfg grants, s)
  | .depositAsVested raw => do
      let (grants, s) := DepositStage.parse cfg raw s
      return (← grantTotal cfg grants, s)
  | .airdropFromUnlocked raw => do
      let (grants, s) := AirdropMintStage.parse cfg raw s
      return (← grantTotal cfg grants, s)
  | .airdropTransfer raw => .ok (0, (AirdropTransferStage.parse cfg raw s).2)

def execute (cfg : Config σ) (source : Allocation) (stage : Stage) (s : State σ) :
    Except Panic (State σ) :=
  match stage with
  | .retired => .ok s
  | .depositFromUnlocked raw =>
      let (grants, s) := DepositStage.parseWithSchedule cfg raw s
      DepositStage.transferUnlocked cfg source grants s
  | .depositAsVested raw =>
      let (grants, s) := DepositStage.parse cfg raw s
      DepositStage.transferAsVested cfg source grants s
  | .airdropFromUnlocked raw =>
      let (grants, s) := AirdropMintStage.parse cfg raw s
      AirdropMintStage.mint cfg source grants s
  | .airdropTransfer raw =>
      let (claims, s) := AirdropTransferStage.parse cfg raw s
      .ok (AirdropTransferStage.transfer claims s)

end Stage

/-! ## What stages do

Apart from minting claims, a stage reports, moves tokens from one account to
another, changes schedules and moves claims. -/

/-- The version of the stage of which the event tells that it was executed. -/
def Event.executed : Event → Option Nat
  | .stageExceededIssuance version _ => some version
  | .stageExecuted version _ => some version
  | _ => none

/-- The versions of the stages executed so far. -/
def State.executed (s : State σ) : List Nat := s.events.filterMap Event.executed

def State.report (s : State σ) (events : List Event) : State σ :=
  { s with events := s.events ++ events }

inductive Acts (cfg : Config σ) (s : State σ) : State σ → Prop
  | report {events : List Event} (h : ∀ event ∈ events, event.executed = none) :
      Acts cfg s (s.report events)
  | transfer {source dest : AccountId} {amount : Nat} {balances : σ}
      (h : cfg.currency.transfer s.balances source dest amount = some balances) :
      Acts cfg s (s.setBalances balances)
  | lock {who : AccountId} {info : VestingInfo} {balances : σ}
      (h : cfg.currency.addVestingSchedule s.balances who info = some balances) :
      Acts cfg s (s.setBalances balances)
  | unlock {who : AccountId} {index : Nat} {balances : σ}
      (h : cfg.currency.removeVestingSchedule s.balances who index = some balances) :
      Acts cfg s (s.setBalances balances)
  | move {source dest : AccountId} {store : Airdrop.Store}
      (h : Airdrop.moveAirdrop s.store source dest = .ok store) : Acts cfg s (s.setStore store)

open Relation (ReflTransGen)

section Acts

variable {cfg : Config σ} {source : Allocation} {s s' : State σ}

theorem acts_event {event : Event} (h : event.executed = none) :
    ReflTransGen (Acts cfg) s (s.depositEvent event) :=
  .single (.report (List.forall_mem_singleton.mpr h))

theorem acts_foldlM {α : Type} {round : State σ → α → Except Panic (State σ)}
    (hround : ∀ {t a t'}, round t a = .ok t' → ReflTransGen (Acts cfg) t t') {as : List α}
    (h : as.foldlM round s = .ok s') : ReflTransGen (Acts cfg) s s' :=
  foldlM_ok_rule (P := ReflTransGen (Acts cfg) s) (fun hr hs => hs.trans (hround hr)) h .refl

theorem acts_parseEach {ρ α : Type} {parse : ρ → Except Event α} {raw : List ρ}
    (h : ∀ details event, parse details = .error event → event.executed = none) :
    ReflTransGen (Acts cfg) s (parseEach parse raw s).2 := by
  refine .single (.report fun event hevent => ?_)
  obtain ⟨details, -, hevent⟩ := List.mem_filterMap.mp hevent
  cases hparse : parse details with
  | ok a =>
      rw [hparse] at hevent
      cases hevent
  | error e =>
      rw [hparse] at hevent
      cases hevent
      exact h details _ hparse

theorem checkDeposit_error {parsed : Option Grant} {id : String} {event : Event}
    (h : checkDeposit cfg parsed id = .error event) : event.executed = none := by
  cases parsed with
  | none =>
      cases h
      rfl
  | some grant =>
      rw [checkDeposit] at h
      split at h
      · cases h
        rfl
      · cases h

theorem okOr_error {α : Type} {x : Option α} {event event' : Event} (h : event.executed = none)
    (herr : Pallet.okOr x event = .error event') : event'.executed = none := by
  cases x with
  | none =>
      cases herr
      exact h
  | some a => cases herr

theorem addSchedule_acts {who : AccountId} {info : VestingInfo} {message : String}
    (h : addSchedule cfg s who info message = .ok s') : ReflTransGen (Acts cfg) s s' := by
  rw [addSchedule] at h
  split at h
  · next balances hadd =>
    cases h
    exact .single (.lock hadd)
  · cases h

theorem transferGrant_acts {grant : Grant}
    (h : DepositStage.transferGrant cfg source s grant = .ok s') :
    ReflTransGen (Acts cfg) s s' := by
  rw [DepositStage.transferGrant] at h
  split at h
  · cases h
    exact acts_event rfl
  · split at h
    · cases h
      exact acts_event rfl
    · next balances htransfer =>
      split at h
      · cases h
        exact .single (.transfer htransfer)
      · exact .head (.transfer htransfer) (addSchedule_acts h)

theorem transferVested_acts {grant : Grant}
    (h : DepositStage.transferVested cfg source s grant = .ok s') :
    ReflTransGen (Acts cfg) s s' := by
  rw [DepositStage.transferVested] at h
  split at h
  · cases h
    exact acts_event rfl
  · split at h
    · cases h
      exact acts_event rfl
    · split at h
      · cases h
        exact acts_event rfl
      · split at h
        · cases h
          exact acts_event rfl
        · next balances htransfer => exact .head (.transfer htransfer) (addSchedule_acts h)

theorem relock_acts (h : DepositStage.relock cfg source s = .ok s') :
    ReflTransGen (Acts cfg) s s' := by
  rw [DepositStage.relock] at h
  split at h
  · exact addSchedule_acts h
  · cases h
    exact acts_event rfl

theorem transferAsVested_acts {grants : List Grant}
    (h : DepositStage.transferAsVested cfg source grants s = .ok s') :
    ReflTransGen (Acts cfg) s s' := by
  rw [DepositStage.transferAsVested] at h
  split at h
  · cases h
    exact acts_event rfl
  · split at h
    · cases h
      exact acts_event rfl
    · next balances hremove =>
      obtain ⟨s₁, hrounds, h⟩ := bind_ok h
      have hmoved := acts_foldlM transferVested_acts hrounds
      exact .head (.unlock hremove) (hmoved.trans (relock_acts h))

theorem moveClaim_acts (claim : AccountId × AccountId) :
    ReflTransGen (Acts cfg) s (AirdropTransferStage.moveClaim s claim) := by
  rw [AirdropTransferStage.moveClaim]
  split
  · next store hmove => exact .single (.move hmove)
  all_goals exact acts_event rfl

theorem transfer_acts (claims : List (AccountId × AccountId)) :
    ReflTransGen (Acts cfg) s (AirdropTransferStage.transfer claims s) :=
  List.foldlRecOn (motive := ReflTransGen (Acts cfg) s) claims _ .refl
    fun _ hs claim _ => hs.trans (moveClaim_acts claim)

theorem depositParse_acts (raw : List RawDeposit) :
    ReflTransGen (Acts cfg) s (DepositStage.parse cfg raw s).2 :=
  acts_parseEach fun _ _ => checkDeposit_error

theorem parseWithSchedule_acts (raw : List RawDepositWithSchedule) :
    ReflTransGen (Acts cfg) s (DepositStage.parseWithSchedule cfg raw s).2 :=
  acts_parseEach fun _ _ => checkDeposit_error

theorem mintParse_acts (raw : List RawDepositWithSchedule) :
    ReflTransGen (Acts cfg) s (AirdropMintStage.parse cfg raw s).2 :=
  acts_parseEach fun _ _ => okOr_error rfl

theorem transferParse_acts (raw : List RawAirdropTransfer) :
    ReflTransGen (Acts cfg) s (AirdropTransferStage.parse cfg raw s).2 :=
  acts_parseEach fun _ _ => okOr_error rfl

/-- Every stage but those that mint claims. -/
theorem execute_acts {stage : Stage} (hother : ∀ raw, stage ≠ .airdropFromUnlocked raw)
    (h : stage.execute cfg source s = .ok s') : ReflTransGen (Acts cfg) s s' := by
  cases stage with
  | retired =>
      cases h
      exact .refl
  | depositFromUnlocked raw =>
      exact (parseWithSchedule_acts raw).trans (acts_foldlM transferGrant_acts h)
  | depositAsVested raw =>
      exact (depositParse_acts raw).trans (transferAsVested_acts h)
  | airdropFromUnlocked raw => exact absurd rfl (hother raw)
  | airdropTransfer raw =>
      cases h
      exact (transferParse_acts raw).trans (transfer_acts _)

end Acts

/-! An example runtime: an address is known by its length, and a wallet by
the position of the allocation. -/

def exampleConfig : Config (Wallets AccountId) where
  currency := Wallets.currency
  minimumBalance := 10
  overflowChecks := true
  minimumDeposit := 10
  debugAssertions := true
  fromSs58check id := some (Vector.replicate 32 id.length.toUInt8)
  subAccount id :=
    Vector.replicate 32
      (100 + ((List.range 12).findIdx fun i => (Allocation.fromIndex i).subId == id).toUInt8)
  fromRational p q := p * 10 ^ 9 / q
  mulPerbill parts n := parts * n / 10 ^ 9
  hashOf _ := Vector.replicate 32 1

end Launch

end Timechain
