import Timechain.Currency
import Timechain.Primitives
import Timechain.Run
import Timechain.Storage

/-!
# The airdrop pallet

Claims to tokens that are issued when they are collected
(`pallets/airdrop/src/lib.rs`). A claim is minted, added to, moved to
another owner, and paid out; some claims have a vesting schedule. The sum of
all claims is kept apart from the claims themselves.

The internal functions are modelled, in which signatures and origins have
been checked. A panic is `none`: a total that does not fit with overflow
checks on, or a schedule that is refused after it was found possible.
-/

namespace Timechain

namespace Airdrop

open Pallet (ensure okOr)

inductive Event where
  | minted (owner : AccountId) (amount : Nat)
  | moved (source dest : AccountId)
  | claimed (source target : AccountId) (amount : Nat)

inductive Error where
  | hasNoClaim
  | potUnderflow
  | balanceTooSmall
  | vestingNotPossible
  | alreadyHasClaim
deriving DecidableEq

structure Config (σ : Type) where
  currency : VestingCurrency AccountId σ
  minimumBalance : Nat
  overflowChecks : Bool

structure Store where
  claims : StorageMap AccountId Nat
  total : Nat
  vesting : StorageMap AccountId VestingInfo
  events : List Event

namespace Store

def depositEvent (s : Store) (event : Event) : Store := { s with events := s.events ++ [event] }

/-- A claim with an optional schedule. -/
def putClaim (s : Store) (owner : AccountId) (amount : Nat) (vesting : Option VestingInfo) :
    Store :=
  { s with
    claims := s.claims.insert owner amount
    vesting :=
      match vesting with
      | some info => s.vesting.insert owner info
      | none => s.vesting }

end Store

variable {σ : Type}

def mintAirdrop (cfg : Config σ) (s : Store) (owner : AccountId) (amount : Nat)
    (vesting : Option VestingInfo) : Except Error (Option Store) := do
  ensure (cfg.minimumBalance ≤ amount) .balanceTooSmall
  ensure (s.claims.get owner).isNone .alreadyHasClaim
  return (addChecked cfg.overflowChecks 128 s.total amount).map fun total =>
    ({ s with total := total }.putClaim owner amount vesting).depositEvent (.minted owner amount)

def addAirdrop (cfg : Config σ) (s : Store) (owner : AccountId) (amount : Nat)
    (vesting : Option VestingInfo) : Except Error (Option Store) := do
  ensure (cfg.minimumBalance ≤ amount) .balanceTooSmall
  ensure (vesting.isNone || (s.vesting.get owner).isNone) .vestingNotPossible
  let s := { s with total := satAdd 128 s.total amount }
  let combined := satAdd 128 amount (s.claims.getD owner 0)
  let s := { s with claims := s.claims.remove owner }
  return some ((s.putClaim owner combined vesting).depositEvent (.minted owner amount))

def moveAirdrop (s : Store) (source dest : AccountId) : Except Error Store := do
  ensure (s.claims.get dest).isNone .alreadyHasClaim
  let amount ← okOr (s.claims.get source) .hasNoClaim
  let s := { s with claims := (s.claims.remove source).insert dest amount }
  let s :=
    match s.vesting.get source with
    | some info => { s with vesting := (s.vesting.remove source).insert dest info }
    | none => s
  return s.depositEvent (.moved source dest)

/-- Claims and the currency they are paid in. -/
structure State (σ : Type) where
  store : Store
  balances : σ

def processAirdrop (cfg : Config σ) (s : State σ) (source target : AccountId) :
    Except Error (Option (State σ)) := do
  let amount ← okOr (s.store.claims.get source) .hasNoClaim
  ensure (amount ≤ s.store.total) .potUnderflow
  let newTotal := s.store.total - amount
  let vesting := s.store.vesting.get source
  ensure (vesting.all (cfg.currency.canAddVestingSchedule s.balances target)) .vestingNotPossible
  let balances := cfg.currency.depositCreating s.balances target amount
  let vested :=
    match vesting with
    | some info => cfg.currency.addVestingSchedule balances target info
    | none => some balances
  return vested.map fun balances =>
    { store := { s.store with
        total := newTotal
        claims := s.store.claims.remove source
        vesting := s.store.vesting.remove source
        events := s.store.events ++ [.claimed source target amount] }
      balances := balances }

inductive Call where
  | mintAirdrop (owner : AccountId) (amount : Nat) (vesting : Option VestingInfo)
  | addAirdrop (owner : AccountId) (amount : Nat) (vesting : Option VestingInfo)
  | moveAirdrop (source dest : AccountId)
  | processAirdrop (source target : AccountId)

/-- The result of a call before a failed one is rolled back. -/
def Call.run (cfg : Config σ) (s : State σ) : Call → Except Error (Option (State σ))
  | .mintAirdrop owner amount vesting => do
      let store ← Airdrop.mintAirdrop cfg s.store owner amount vesting
      return store.map fun store => { s with store := store }
  | .addAirdrop owner amount vesting => do
      let store ← Airdrop.addAirdrop cfg s.store owner amount vesting
      return store.map fun store => { s with store := store }
  | .moveAirdrop source dest => do
      let store ← Airdrop.moveAirdrop s.store source dest
      return some { s with store := store }
  | .processAirdrop source target => Airdrop.processAirdrop cfg s source target

def exec (cfg : Config σ) (s : State σ) (call : Call) : Option (State σ) :=
  Pallet.dispatch (some s) (call.run cfg s)

/-! ## Accounting -/

def Event.mintedAmount : Event → Nat
  | .minted _ amount => amount
  | _ => 0

def Event.paidAmount : Event → Nat
  | .claimed _ _ amount => amount
  | _ => 0

/-- What the calls with these events minted or added. -/
def mintedTotal (events : List Event) : Nat := (events.map Event.mintedAmount).sum

/-- What the calls with these events paid out. -/
def paidTotal (events : List Event) : Nat := (events.map Event.paidAmount).sum

/-- The total is the sum of the claims, and only claims have schedules. -/
structure Store.Sound (s : Store) : Prop where
  total : s.total = s.claims.total
  vesting : ∀ a, s.vesting.get a ≠ none → s.claims.get a ≠ none

/-- The total can take the amount. -/
def Fits (s : State σ) : Call → Prop
  | .mintAirdrop _ amount _ => s.store.total + amount < 2 ^ 128
  | .addAirdrop _ amount _ => s.store.total + amount < 2 ^ 128
  | _ => True

instance decidableFits (s : State σ) : (call : Call) → Decidable (Fits s call)
  | .mintAirdrop _ amount _ => Nat.decLt (s.store.total + amount) (2 ^ 128)
  | .addAirdrop _ amount _ => Nat.decLt (s.store.total + amount) (2 ^ 128)
  | .moveAirdrop .. => isTrue trivial
  | .processAirdrop .. => isTrue trivial

/-- From `s` to `s'` the claims change by what the new events say. -/
structure Follows (cfg : Config σ) (s s' : State σ) (new : List Event) : Prop where
  events : s'.store.events = s.store.events ++ new
  claims : s'.store.claims.total + paidTotal new = s.store.claims.total + mintedTotal new
  issuance : cfg.currency.totalIssuance s'.balances =
    cfg.currency.totalIssuance s.balances + paidTotal new

theorem Follows.refl (cfg : Config σ) (s : State σ) : Follows cfg s s [] :=
  ⟨(List.append_nil _).symm, rfl, rfl⟩

theorem Follows.trans {cfg : Config σ} {s s' s'' : State σ} {new new' : List Event}
    (h : Follows cfg s s' new) (h' : Follows cfg s' s'' new') :
    Follows cfg s s'' (new ++ new') := by
  have hpaid : paidTotal (new ++ new') = paidTotal new + paidTotal new' := by
    simp [paidTotal]
  have hminted : mintedTotal (new ++ new') = mintedTotal new + mintedTotal new' := by
    simp [mintedTotal]
  have hclaims := h.claims
  have hclaims' := h'.claims
  have hissuance := h.issuance
  have hissuance' := h'.issuance
  exact ⟨by rw [h'.events, h.events, List.append_assoc], by omega, by omega⟩

namespace Store

theorem putClaim_vesting {s : Store} {owner a : AccountId} {amount : Nat}
    {vesting : Option VestingInfo} (h : (s.putClaim owner amount vesting).vesting.get a ≠ none) :
    a = owner ∨ s.vesting.get a ≠ none := by
  cases vesting with
  | none => exact .inr h
  | some info => exact StorageMap.get_insert_ne_none.mp h

/-- A claim is written over what the owner had. -/
theorem Sound.putClaim {s : Store} {owner : AccountId} {amount : Nat}
    {vesting : Option VestingInfo} (hvesting : ∀ a, s.vesting.get a ≠ none → a = owner ∨
      s.claims.get a ≠ none) (htotal : s.total = amount + (s.claims.remove owner).total) :
    (s.putClaim owner amount vesting).Sound where
  total := htotal.trans (StorageMap.total_insert ..).symm
  vesting a ha := by
    refine StorageMap.get_insert_ne_none.mpr ?_
    rcases putClaim_vesting ha with ha | ha
    · exact .inl ha
    · exact hvesting a ha

end Store

section Calls

variable {cfg : Config σ} {s s' : Store}

theorem mintAirdrop_ok {owner : AccountId} {amount : Nat} {vesting : Option VestingInfo}
    (hfits : s.total + amount < 2 ^ 128)
    (hcall : mintAirdrop cfg s owner amount vesting = .ok (some s')) :
    cfg.minimumBalance ≤ amount ∧ s.claims.get owner = none ∧
      s' = ({ s with total := s.total + amount }.putClaim owner amount vesting).depositEvent
        (.minted owner amount) := by
  obtain ⟨_, hmin, hcall⟩ := bind_ok hcall
  obtain ⟨_, hnone, hcall⟩ := bind_ok hcall
  obtain ⟨total, hadd, hs'⟩ := Option.map_eq_some_iff.mp (Except.ok.inj hcall)
  rw [addChecked_of_lt hfits] at hadd
  cases hadd
  exact ⟨of_decide_eq_true (Pallet.ensure_ok hmin),
    Option.isNone_iff_eq_none.mp (Pallet.ensure_ok hnone), hs'.symm⟩

theorem mintAirdrop_error {owner : AccountId} {amount : Nat} {vesting : Option VestingInfo}
    {e : Error} (hcall : mintAirdrop cfg s owner amount vesting = .error e) :
    ¬(cfg.minimumBalance ≤ amount ∧ s.claims.get owner = none) := by
  rintro ⟨hmin, hnone⟩
  rw [mintAirdrop, hnone, ensure, if_pos (decide_eq_true hmin)] at hcall
  cases hcall

theorem mintAirdrop_sound {owner : AccountId} {amount : Nat} {vesting : Option VestingInfo}
    (h : s.Sound) (hfits : s.total + amount < 2 ^ 128)
    (hcall : mintAirdrop cfg s owner amount vesting = .ok (some s')) :
    s'.Sound ∧ s'.events = s.events ++ [.minted owner amount] ∧
      s'.claims.total = s.claims.total + amount := by
  obtain ⟨-, hnone, rfl⟩ := mintAirdrop_ok hfits hcall
  have hclaims := StorageMap.total_of_get_none hnone
  have htotal := h.total
  refine ⟨?_, rfl, ?_⟩
  · have hsound : ({ s with total := s.total + amount }.putClaim owner amount vesting).Sound :=
      .putClaim (fun a ha => .inr (h.vesting a ha)) (by dsimp only; omega)
    exact ⟨hsound.total, hsound.vesting⟩
  · change (s.claims.insert owner amount).total = _
    rw [StorageMap.total_insert]
    omega

theorem addAirdrop_sound {owner : AccountId} {amount : Nat} {vesting : Option VestingInfo}
    (h : s.Sound) (hfits : s.total + amount < 2 ^ 128)
    (hcall : addAirdrop cfg s owner amount vesting = .ok (some s')) :
    s'.Sound ∧ s'.events = s.events ++ [.minted owner amount] ∧
      s'.claims.total = s.claims.total + amount := by
  obtain ⟨_, -, hcall⟩ := bind_ok hcall
  obtain ⟨_, -, hcall⟩ := bind_ok hcall
  cases hcall
  have hclaims := s.claims.total_eq owner
  have htotal := h.total
  have hcombined : satAdd 128 amount (s.claims.getD owner 0) = amount + s.claims.getD owner 0 :=
    satAdd_of_lt (by omega)
  -- the old claim is taken out before the new one is written
  have htwice : ((s.claims.remove owner).remove owner).total = (s.claims.remove owner).total :=
    (StorageMap.total_of_get_none (StorageMap.get_remove_self ..)).symm
  refine ⟨?_, rfl, ?_⟩
  · have hsound : ({ s with
        total := satAdd 128 s.total amount
        claims := s.claims.remove owner }.putClaim owner
          (satAdd 128 amount (s.claims.getD owner 0)) vesting).Sound := by
      refine .putClaim (fun a ha => ?_) ?_
      · by_cases hown : a = owner
        · exact .inl hown
        · exact .inr (StorageMap.get_remove_ne_none.mpr ⟨hown, h.vesting a ha⟩)
      · dsimp only
        rw [hcombined, satAdd_of_lt hfits, htwice]
        omega
    exact ⟨hsound.total, hsound.vesting⟩
  · change ((s.claims.remove owner).insert owner (satAdd 128 amount (s.claims.getD owner 0))).total
      = _
    rw [StorageMap.total_insert, htwice, hcombined]
    omega

theorem moveAirdrop_total {source dest : AccountId} (hcall : moveAirdrop s source dest = .ok s') :
    s'.total = s.total := by
  obtain ⟨_, -, hcall⟩ := bind_ok hcall
  obtain ⟨amount, -, hcall⟩ := bind_ok hcall
  cases hcall
  change Store.total (match s.vesting.get source with | some info => _ | none => _) = _
  split <;> rfl

theorem moveAirdrop_sound {source dest : AccountId} (h : s.Sound)
    (hcall : moveAirdrop s source dest = .ok s') :
    s'.Sound ∧ s'.events = s.events ++ [.moved source dest] ∧
      s'.claims.total = s.claims.total := by
  obtain ⟨_, hnone, hcall⟩ := bind_ok hcall
  have hnone := Option.isNone_iff_eq_none.mp (Pallet.ensure_ok hnone)
  obtain ⟨amount, hamount, hcall⟩ := bind_ok hcall
  have hamount := Pallet.okOr_ok hamount
  cases hcall
  have hne : dest ≠ source := by
    rintro rfl
    exact Option.some_ne_none _ (hamount.symm.trans hnone)
  have hmoved : ((s.claims.remove source).insert dest amount).total = s.claims.total := by
    have hrest := StorageMap.total_of_get_none ((s.claims.get_remove_of_ne hne).trans hnone)
    have hclaims := StorageMap.total_of_get hamount
    rw [StorageMap.total_insert]
    omega
  have hkeys : ∀ a, a = dest ∨ a ≠ source ∧ s.claims.get a ≠ none →
      ((s.claims.remove source).insert dest amount).get a ≠ none := by
    intro a ha
    rw [StorageMap.get_insert_ne_none, StorageMap.get_remove_ne_none]
    exact ha
  cases hvesting : s.vesting.get source with
  | none =>
      refine ⟨⟨h.total.trans hmoved.symm, fun a ha => hkeys a (.inr ⟨?_, h.vesting a ha⟩)⟩,
        rfl, hmoved⟩
      rintro rfl
      exact ha hvesting
  | some info =>
      refine ⟨⟨h.total.trans hmoved.symm, fun a ha => hkeys a ?_⟩, rfl, hmoved⟩
      rcases StorageMap.get_insert_ne_none.mp ha with ha | ha
      · exact .inl ha
      · obtain ⟨hsource, ha⟩ := StorageMap.get_remove_ne_none.mp ha
        exact .inr ⟨hsource, h.vesting a ha⟩

end Calls

section Steps

variable {cfg : Config σ} {s s' : State σ}

/-- No claim is larger than the total. -/
theorem claim_le_total (h : s.store.Sound) {source : AccountId} {amount : Nat}
    (hamount : s.store.claims.get source = some amount) : amount ≤ s.store.total := by
  have hclaims := StorageMap.total_of_get hamount
  have htotal := h.total
  omega

theorem processAirdrop_ne_potUnderflow (h : s.store.Sound) (source target : AccountId) :
    processAirdrop cfg s source target ≠ .error .potUnderflow := by
  intro herr
  rw [processAirdrop] at herr
  cases hamount : s.store.claims.get source with
  | none =>
      rw [hamount] at herr
      cases herr
  | some amount =>
      have hpot : ensure (amount ≤ s.store.total) Error.potUnderflow = .ok () :=
        if_pos (decide_eq_true (claim_le_total h hamount))
      rw [hamount] at herr
      change (ensure (amount ≤ s.store.total) Error.potUnderflow >>= fun _ => _) = _ at herr
      rw [hpot] at herr
      -- What is left to fail is the vesting schedule.
      cases hvesting : (s.store.vesting.get source).all
          (cfg.currency.canAddVestingSchedule s.balances target) <;>
        rw [hvesting] at herr <;> cases herr

theorem processAirdrop_sound (hcurrency : cfg.currency.Lawful) (h : s.store.Sound)
    {source target : AccountId} (hcall : processAirdrop cfg s source target = .ok (some s')) :
    s'.store.Sound ∧ ∃ amount, Follows cfg s s' [.claimed source target amount] := by
  obtain ⟨amount, hamount, hcall⟩ := bind_ok hcall
  obtain ⟨_, -, hcall⟩ := bind_ok hcall
  obtain ⟨_, -, hcall⟩ := bind_ok hcall
  obtain ⟨balances, hvested, hs'⟩ := Option.map_eq_some_iff.mp (Except.ok.inj hcall)
  cases hs'
  have hamount := Pallet.okOr_ok hamount
  have hle := claim_le_total h hamount
  have hclaims := StorageMap.total_of_get hamount
  have htotal := h.total
  have hissuance : cfg.currency.totalIssuance balances =
      cfg.currency.totalIssuance s.balances + amount := by
    rw [← hcurrency.issuance_deposit]
    cases hvesting : s.store.vesting.get source with
    | none =>
        rw [hvesting] at hvested
        cases hvested
        rfl
    | some info =>
        rw [hvesting] at hvested
        exact hcurrency.issuance_addVesting hvested
  refine ⟨⟨?_, fun a ha => ?_⟩, amount, rfl, ?_, hissuance⟩
  · change s.store.total - amount = (s.store.claims.remove source).total
    omega
  · obtain ⟨hne, ha⟩ := StorageMap.get_remove_ne_none.mp ha
    exact StorageMap.get_remove_ne_none.mpr ⟨hne, h.vesting a ha⟩
  · change (s.store.claims.remove source).total + (amount + 0) = s.store.claims.total + 0
    omega

theorem run_follows (hcurrency : cfg.currency.Lawful) {call : Call} (h : s.store.Sound)
    (hfits : Fits s call) (hcall : call.run cfg s = .ok (some s')) :
    s'.store.Sound ∧ ∃ new, Follows cfg s s' new := by
  cases call with
  | mintAirdrop owner amount vesting =>
      obtain ⟨store, hmint, hcall⟩ := bind_ok hcall
      obtain ⟨store, rfl, hs'⟩ := Option.map_eq_some_iff.mp (Except.ok.inj hcall)
      cases hs'
      obtain ⟨hsound, hevents, hclaims⟩ := mintAirdrop_sound h hfits hmint
      exact ⟨hsound, _, hevents, hclaims, rfl⟩
  | addAirdrop owner amount vesting =>
      obtain ⟨store, hadd, hcall⟩ := bind_ok hcall
      obtain ⟨store, rfl, hs'⟩ := Option.map_eq_some_iff.mp (Except.ok.inj hcall)
      cases hs'
      obtain ⟨hsound, hevents, hclaims⟩ := addAirdrop_sound h hfits hadd
      exact ⟨hsound, _, hevents, hclaims, rfl⟩
  | moveAirdrop source dest =>
      obtain ⟨store, hmove, hcall⟩ := bind_ok hcall
      cases hcall
      obtain ⟨hsound, hevents, hclaims⟩ := moveAirdrop_sound h hmove
      exact ⟨hsound, _, hevents, hclaims, rfl⟩
  | processAirdrop source target =>
      obtain ⟨hsound, amount, hfollows⟩ := processAirdrop_sound hcurrency h hcall
      exact ⟨hsound, _, hfollows⟩

theorem exec_follows (hcurrency : cfg.currency.Lawful) {call : Call} (h : s.store.Sound)
    (hfits : Fits s call) (hexec : exec cfg s call = some s') :
    s'.store.Sound ∧ ∃ new, Follows cfg s s' new := by
  rw [exec] at hexec
  cases hcall : call.run cfg s with
  | error e =>
      rw [hcall] at hexec
      cases hexec
      exact ⟨h, [], .refl cfg s⟩
  | ok result =>
      rw [hcall] at hexec
      cases hexec
      exact run_follows hcurrency h hfits hcall

end Steps

/-- Over any calls the total stays the sum of the claims, only claims have
schedules, claims and payments add up to what was minted, the payments are
what is issued, and there is always enough in the pot. -/
theorem airdrop_conserved {cfg : Config σ} (hcurrency : cfg.currency.Lawful) {s₀ s : State σ}
    (h₀ : s₀.store.total = s₀.store.claims.total)
    (hvesting : ∀ a, s₀.store.vesting.get a ≠ none → s₀.store.claims.get a ≠ none)
    {calls : List Call} (hrun : Run (exec cfg) Fits s₀ calls s) :
    s.store.total = s.store.claims.total ∧
    (∀ a, s.store.vesting.get a ≠ none → s.store.claims.get a ≠ none) ∧
    (∃ new, s.store.events = s₀.store.events ++ new ∧
      s.store.claims.total + paidTotal new = s₀.store.claims.total + mintedTotal new ∧
      cfg.currency.totalIssuance s.balances =
        cfg.currency.totalIssuance s₀.balances + paidTotal new) ∧
    ∀ source target, processAirdrop cfg s source target ≠ .error .potUnderflow := by
  have hinv : s.store.Sound ∧ ∃ new, Follows cfg s₀ s new := by
    refine hrun.invariant (P := fun _ s => s.store.Sound ∧ ∃ new, Follows cfg s₀ s new)
      ⟨⟨h₀, hvesting⟩, [], .refl cfg s₀⟩ fun _ ⟨hsound, new, hfollows⟩ hfits hexec => ?_
    obtain ⟨hsound', new', hfollows'⟩ := exec_follows hcurrency hsound hfits hexec
    exact ⟨hsound', new ++ new', hfollows.trans hfollows'⟩
  obtain ⟨hsound, new, hfollows⟩ := hinv
  exact ⟨hsound.total, hsound.vesting, ⟨new, hfollows.events, hfollows.claims, hfollows.issuance⟩,
    processAirdrop_ne_potUnderflow hsound⟩

def exampleConfig : Config (Wallets AccountId) := ⟨Wallets.currency, 10, true⟩

def exampleOwner (n : UInt8) : AccountId := Vector.replicate 32 n

/-- No claims yet, and an account with 1000 tokens. -/
def exampleGenesis : State (Wallets AccountId) :=
  { store := { claims := ∅, total := 0, vesting := ∅, events := [] }
    balances := ⟨StorageMap.insert ∅ (exampleOwner 0) 1000, ∅⟩ }

/-- A claim is minted with a schedule, added to, moved and paid out; another
one stays. -/
def exampleCalls : List Call :=
  [.mintAirdrop (exampleOwner 1) 20 (some ⟨20, 1, 5⟩), .addAirdrop (exampleOwner 1) 12 none,
    .mintAirdrop (exampleOwner 2) 15 none, .moveAirdrop (exampleOwner 1) (exampleOwner 2),
    .moveAirdrop (exampleOwner 1) (exampleOwner 3),
    .processAirdrop (exampleOwner 3) (exampleOwner 0)]

def exampleState : State (Wallets AccountId) :=
  Run.endState (exec exampleConfig) exampleGenesis exampleCalls

theorem exampleState_run :
    Run (exec exampleConfig) Fits exampleGenesis exampleCalls exampleState :=
  Run.of_guarded (fun s call h => of_decide_eq_true (p := Fits s call) h) (by decide +kernel)

theorem airdrop_conserved_claimed :
    (exampleState.store.total = 15 ∧
      exampleConfig.currency.totalIssuance exampleState.balances = 1032) ∧
    exampleState.store.total = exampleState.store.claims.total :=
  ⟨by decide +kernel, (airdrop_conserved Wallets.currency_lawful rfl
    (fun a ha => (ha (StorageMap.get_empty a)).elim) exampleState_run).1⟩

end Airdrop

end Timechain
