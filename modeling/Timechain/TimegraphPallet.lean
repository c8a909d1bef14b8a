import Timechain.Currency
import Timechain.Run
import Timechain.TasksState

/-!
# The timegraph pallet

Users put funds aside for timegraph and take them back; timegraph moves
them to a reward pool and awards from it (`pallets/timegraph/src/lib.rs`).
The pallet has no books of its own: what it holds for an account is part of
the account's reserved balance, which other pallets use as well.

Amounts and accounts are in the events, so that what an account has put in
and taken out is read off these (`received`, `released`). What other
pallets hold is a history variable (`others`). The books of an account balance
in every run (`Balanced`), and an account gets no more than it put in
exactly as long as a release leaves the reserves of others alone
(`released_le_received`). Nothing in the pallet makes sure of it.
-/

namespace Timechain

namespace Timegraph

open Tasks (Origin)
open Pallet (ensure okOr dispatch)

inductive Event where
  | deposit (who : AccountId) (amount sequence : Nat)
  | withdrawal (who : AccountId) (amount sequence : Nat)
  | transferToPool (source dest : AccountId) (amount : Nat)
  | transferAwardToUser (source dest : AccountId) (amount : Nat)
  | timegraphAccountReset (old new : AccountId)
  | rewardPoolAccountReset (old new : AccountId)
  | thresholdReset (old new : Nat)

inductive Error where
  | badOrigin
  /-- The currency refuses. -/
  | currency
  | sequenceNumberOverflow
  | zeroAmount
  | withdrawalAmountOverReserve
  | notWithdrawalRequired
  | rewardPoolOutOfBalance
  | rewardToSameAccount
  | sameTimegraphAccount
  | sameRewardPoolAccount
  | sameThreshold
  | senderIsNotTimegraph
deriving DecidableEq

structure Config (σ : Type) where
  currency : ReservableCurrency AccountId σ
  adminOrigin : Origin → Bool

structure State (σ : Type) where
  balances : σ
  nextDepositSequence : StorageMap AccountId Nat
  nextWithdrawalSequence : StorageMap AccountId Nat
  timegraphAccount : AccountId
  rewardPoolAccount : AccountId
  threshold : Nat
  events : List Event
  /-- History: what other pallets have reserved, less what they have
  unreserved. -/
  others : AccountId → Int

variable {σ : Type}

def ensureSigned : Origin → Except Error AccountId
  | .signed who => .ok who
  | _ => .error .badOrigin

/-- `checked_add(1)` on a sequence number. -/
def nextSequence (sequences : StorageMap AccountId Nat) (who : AccountId) : Except Error Nat :=
  let sequence := sequences.getD who 0 + 1
  if sequence < 2 ^ 64 then .ok sequence else .error .sequenceNumberOverflow

namespace State

def depositEvent (s : State σ) (event : Event) : State σ := { s with events := s.events ++ [event] }

def ensureTimegraph (s : State σ) (origin : Origin) : Except Error Unit := do
  let who ← ensureSigned origin
  ensure (who = s.timegraphAccount) .senderIsNotTimegraph

def deposit (s : State σ) (cfg : Config σ) (origin : Origin) (amount : Nat) :
    Except Error (State σ) := do
  let who ← ensureSigned origin
  ensure (0 < amount) .zeroAmount
  let balances ← okOr (cfg.currency.reserve s.balances who amount) .currency
  let sequence ← nextSequence s.nextDepositSequence who
  let s := { s with
    balances := balances
    nextDepositSequence := s.nextDepositSequence.insert who sequence }
  return s.depositEvent (.deposit who amount sequence)

def withdraw (s : State σ) (cfg : Config σ) (origin : Origin) (amount : Nat) :
    Except Error (State σ) := do
  let who ← ensureSigned origin
  ensure (0 < amount) .zeroAmount
  let currentReserve := cfg.currency.reservedBalance s.balances who
  ensure (satAdd 128 amount s.threshold ≤ currentReserve) .withdrawalAmountOverReserve
  let (balances, rest) := cfg.currency.unreserve s.balances who amount
  ensure (rest = 0) .notWithdrawalRequired
  let sequence ← nextSequence s.nextWithdrawalSequence who
  let s := { s with
    balances := balances
    nextWithdrawalSequence := s.nextWithdrawalSequence.insert who sequence }
  return s.depositEvent (.withdrawal who amount sequence)

def transferToPool (s : State σ) (cfg : Config σ) (origin : Origin) (account : AccountId)
    (amount : Nat) : Except Error (State σ) := do
  s.ensureTimegraph origin
  let (balances, unserved) := cfg.currency.unreserve s.balances account amount
  ensure (unserved = 0) .notWithdrawalRequired
  let balances ← okOr (cfg.currency.transfer balances account s.rewardPoolAccount amount) .currency
  let s := { s with balances := balances }
  return s.depositEvent (.transferToPool account s.rewardPoolAccount amount)

def transferAwardToUser (s : State σ) (cfg : Config σ) (origin : Origin) (account : AccountId)
    (amount : Nat) : Except Error (State σ) := do
  s.ensureTimegraph origin
  ensure (account ≠ s.rewardPoolAccount) .rewardToSameAccount
  let poolBalance := cfg.currency.freeBalance s.balances s.rewardPoolAccount
  ensure (amount < poolBalance) .rewardPoolOutOfBalance
  let balances ← okOr (cfg.currency.transfer s.balances s.rewardPoolAccount account amount) .currency
  let balances ← okOr (cfg.currency.reserve balances account amount) .currency
  let s := { s with balances := balances }
  return s.depositEvent (.transferAwardToUser s.rewardPoolAccount account amount)

def setTimegraphAccount (s : State σ) (cfg : Config σ) (origin : Origin) (account : AccountId) :
    Except Error (State σ) := do
  ensure (cfg.adminOrigin origin) .badOrigin
  ensure (account ≠ s.timegraphAccount) .sameTimegraphAccount
  let s' := s.depositEvent (.timegraphAccountReset s.timegraphAccount account)
  return { s' with timegraphAccount := account }

def setRewardPoolAccount (s : State σ) (cfg : Config σ) (origin : Origin) (account : AccountId) :
    Except Error (State σ) := do
  ensure (cfg.adminOrigin origin) .badOrigin
  ensure (account ≠ s.rewardPoolAccount) .sameRewardPoolAccount
  let s' := s.depositEvent (.rewardPoolAccountReset s.rewardPoolAccount account)
  return { s' with rewardPoolAccount := account }

def setThreshold (s : State σ) (cfg : Config σ) (origin : Origin) (amount : Nat) :
    Except Error (State σ) := do
  ensure (cfg.adminOrigin origin) .badOrigin
  ensure (amount ≠ s.threshold) .sameThreshold
  let s' := s.depositEvent (.thresholdReset s.threshold amount)
  return { s' with threshold := amount }

/-- Another pallet reserves. -/
def reserve (s : State σ) (cfg : Config σ) (who : AccountId) (amount : Nat) :
    Except Error (State σ) := do
  let balances ← okOr (cfg.currency.reserve s.balances who amount) .currency
  return { s with
    balances := balances
    others := Function.update s.others who (s.others who + amount) }

/-- Another pallet unreserves, as much as there is. -/
def unreserve (s : State σ) (cfg : Config σ) (who : AccountId) (amount : Nat) : State σ :=
  let (balances, rest) := cfg.currency.unreserve s.balances who amount
  { s with
    balances := balances
    others := Function.update s.others who (s.others who - (amount - rest : Nat)) }

end State

inductive Call where
  | deposit (origin : Origin) (amount : Nat)
  | withdraw (origin : Origin) (amount : Nat)
  | transferToPool (origin : Origin) (account : AccountId) (amount : Nat)
  | transferAwardToUser (origin : Origin) (account : AccountId) (amount : Nat)
  | setTimegraphAccount (origin : Origin) (account : AccountId)
  | setRewardPoolAccount (origin : Origin) (account : AccountId)
  | setThreshold (origin : Origin) (amount : Nat)
  /-- Operations of other pallets. -/
  | reserve (who : AccountId) (amount : Nat)
  | unreserve (who : AccountId) (amount : Nat)

/-- The result of a call before a failed one is rolled back. -/
def Call.run (s : State σ) (cfg : Config σ) : Call → Except Error (State σ)
  | .deposit origin amount => s.deposit cfg origin amount
  | .withdraw origin amount => s.withdraw cfg origin amount
  | .transferToPool origin account amount => s.transferToPool cfg origin account amount
  | .transferAwardToUser origin account amount => s.transferAwardToUser cfg origin account amount
  | .setTimegraphAccount origin account => s.setTimegraphAccount cfg origin account
  | .setRewardPoolAccount origin account => s.setRewardPoolAccount cfg origin account
  | .setThreshold origin amount => s.setThreshold cfg origin amount
  | .reserve who amount => s.reserve cfg who amount
  | .unreserve who amount => .ok (s.unreserve cfg who amount)

def exec (cfg : Config σ) (s : State σ) (call : Call) : Option (State σ) :=
  some (dispatch s (call.run s cfg))

/-- Before the first call, all reserves belong to other pallets. -/
def State.genesis (cfg : Config σ) (balances : σ) (timegraphAccount rewardPoolAccount : AccountId)
    (threshold : Nat) : State σ where
  balances := balances
  nextDepositSequence := ∅
  nextWithdrawalSequence := ∅
  timegraphAccount := timegraphAccount
  rewardPoolAccount := rewardPoolAccount
  threshold := threshold
  events := []
  others who := cfg.currency.reservedBalance balances who

/-! ## What accounts put in and take out -/

def Event.receivedFrom (who : AccountId) : Event → Nat
  | .deposit w amount _ => if who = w then amount else 0
  | .transferAwardToUser _ dest amount => if who = dest then amount else 0
  | _ => 0

def Event.releasedTo (who : AccountId) : Event → Nat
  | .withdrawal w amount _ => if who = w then amount else 0
  | .transferToPool source _ amount => if who = source then amount else 0
  | _ => 0

namespace State

/-- Deposited by an account or awarded to it. -/
def received (s : State σ) (who : AccountId) : Nat := (s.events.map (Event.receivedFrom who)).sum

/-- Withdrawn by an account or transferred from it to the pool. -/
def released (s : State σ) (who : AccountId) : Nat := (s.events.map (Event.releasedTo who)).sum

@[simp] theorem received_depositEvent (s : State σ) (event : Event) (who : AccountId) :
    (s.depositEvent event).received who = s.received who + event.receivedFrom who := by
  simp [received, depositEvent]

@[simp] theorem released_depositEvent (s : State σ) (event : Event) (who : AccountId) :
    (s.depositEvent event).released who = s.released who + event.releasedTo who := by
  simp [released, depositEvent]

end State

/-! ## Calls that succeed -/

/-- A step in the books of account `who`: `inn` is put in, `out` taken out,
and other pallets reserve `held` more. -/
structure Moves (cfg : Config σ) (who : AccountId) (s s' : State σ) (inn out : Nat)
    (held : Int) : Prop where
  received : s'.received who = s.received who + inn
  released : s'.released who = s.released who + out
  others : s'.others who = s.others who + held
  reserved : (cfg.currency.reservedBalance s'.balances who : Int) =
    cfg.currency.reservedBalance s.balances who + inn - out + held

/-- The account a call releases funds of, and the amount. -/
def Call.releases : Call → Option (AccountId × Nat)
  | .withdraw (.signed who) amount => some (who, amount)
  | .transferToPool _ account amount => some (account, amount)
  | _ => none

section Calls

variable {cfg : Config σ} (hcurrency : cfg.currency.Lawful) {s s' : State σ}

include hcurrency

theorem deposit_moves {origin : Origin} {amount : Nat} (h : s.deposit cfg origin amount = .ok s')
    (who : AccountId) : ∃ inn, Moves cfg who s s' inn 0 0 := by
  obtain ⟨w, -, h⟩ := bind_ok h
  obtain ⟨_, -, h⟩ := bind_ok h
  obtain ⟨balances, hreserve, h⟩ := bind_ok h
  obtain ⟨sequence, -, h⟩ := bind_ok h
  cases h
  have hreserved := hcurrency.reserved_reserve (Pallet.okOr_ok hreserve) who
  refine ⟨if who = w then amount else 0, ?_, ?_, ?_, ?_⟩
  · exact State.received_depositEvent ..
  · exact State.released_depositEvent ..
  · exact (Int.add_zero _).symm
  · change (cfg.currency.reservedBalance balances who : Int) = _
    omega

/-- All of the amount was reserved, so all of it leaves the reserve. -/
theorem unreserve_whole {balances : σ} {account : AccountId} {amount : Nat}
    (hrest : (cfg.currency.unreserve balances account amount).2 = 0) (who : AccountId) :
    (cfg.currency.reservedBalance (cfg.currency.unreserve balances account amount).1 who : Int)
      = cfg.currency.reservedBalance balances who - if who = account then amount else 0 := by
  have hreserved := hcurrency.reserved_unreserve balances account amount who
  rw [hcurrency.unreserve_rest] at hrest
  by_cases hw : who = account
  · subst hw
    simp only [if_true] at hreserved ⊢
    omega
  · simp only [if_neg hw] at hreserved ⊢
    omega

theorem withdraw_moves {origin : Origin} {amount : Nat} (h : s.withdraw cfg origin amount = .ok s')
    (who : AccountId) : ∃ out, Moves cfg who s s' 0 out 0 ∧
      (out = 0 ∨ (Call.withdraw origin amount).releases = some (who, out)) := by
  obtain ⟨w, horigin, h⟩ := bind_ok h
  obtain ⟨_, -, h⟩ := bind_ok h
  obtain ⟨_, -, h⟩ := bind_ok h
  obtain ⟨_, hrest, h⟩ := bind_ok h
  obtain ⟨sequence, -, h⟩ := bind_ok h
  cases h
  have hreserved := unreserve_whole hcurrency (of_decide_eq_true (Pallet.ensure_ok hrest)) who
  refine ⟨if who = w then amount else 0, ⟨?_, ?_, ?_, ?_⟩, ?_⟩
  · exact State.received_depositEvent ..
  · exact State.released_depositEvent ..
  · exact (Int.add_zero _).symm
  · change (cfg.currency.reservedBalance (cfg.currency.unreserve s.balances w amount).1 who : Int)
      = _
    omega
  · cases origin with
    | signed v =>
        cases horigin
        by_cases hw : who = w
        · subst hw
          exact .inr (by rw [Call.releases, if_pos rfl])
        · exact .inl (if_neg hw)
    | root => cases horigin
    | none => cases horigin

theorem transferToPool_moves {origin : Origin} {account : AccountId} {amount : Nat}
    (h : s.transferToPool cfg origin account amount = .ok s') (who : AccountId) :
    ∃ out, Moves cfg who s s' 0 out 0 ∧
      (out = 0 ∨ (Call.transferToPool origin account amount).releases = some (who, out)) := by
  obtain ⟨_, -, h⟩ := bind_ok h
  obtain ⟨_, hrest, h⟩ := bind_ok h
  obtain ⟨balances, htransfer, h⟩ := bind_ok h
  cases h
  have hreserved := unreserve_whole hcurrency (of_decide_eq_true (Pallet.ensure_ok hrest)) who
  rw [← hcurrency.reserved_transfer (Pallet.okOr_ok htransfer) who] at hreserved
  refine ⟨if who = account then amount else 0, ⟨?_, ?_, ?_, ?_⟩, ?_⟩
  · exact State.received_depositEvent ..
  · exact State.released_depositEvent ..
  · exact (Int.add_zero _).symm
  · change (cfg.currency.reservedBalance balances who : Int) = _
    omega
  · by_cases hw : who = account
    · subst hw
      exact .inr (by rw [Call.releases, if_pos rfl])
    · exact .inl (if_neg hw)

theorem transferAwardToUser_moves {origin : Origin} {account : AccountId} {amount : Nat}
    (h : s.transferAwardToUser cfg origin account amount = .ok s') (who : AccountId) :
    ∃ inn, Moves cfg who s s' inn 0 0 := by
  obtain ⟨_, -, h⟩ := bind_ok h
  obtain ⟨_, -, h⟩ := bind_ok h
  obtain ⟨_, -, h⟩ := bind_ok h
  obtain ⟨balances, htransfer, h⟩ := bind_ok h
  obtain ⟨balances', hreserve, h⟩ := bind_ok h
  cases h
  have htransferred := hcurrency.reserved_transfer (Pallet.okOr_ok htransfer) who
  have hreserved := hcurrency.reserved_reserve (Pallet.okOr_ok hreserve) who
  refine ⟨if who = account then amount else 0, ?_, ?_, ?_, ?_⟩
  · exact State.received_depositEvent ..
  · exact State.released_depositEvent ..
  · exact (Int.add_zero _).symm
  · change (cfg.currency.reservedBalance balances' who : Int) = _
    omega

theorem reserve_moves {w : AccountId} {amount : Nat} (h : s.reserve cfg w amount = .ok s')
    (who : AccountId) : ∃ held, Moves cfg who s s' 0 0 held := by
  obtain ⟨balances, hreserve, h⟩ := bind_ok h
  cases h
  have hreserved := hcurrency.reserved_reserve (Pallet.okOr_ok hreserve) who
  refine ⟨if who = w then amount else 0, rfl, rfl, ?_, ?_⟩
  · change Function.update s.others w _ who = _
    rw [Function.update_apply]
    split
    · next hw => rw [hw]
    · exact (Int.add_zero _).symm
  · change (cfg.currency.reservedBalance balances who : Int) = _
    rw [hreserved]
    split <;> simp

theorem unreserve_moves (s : State σ) (w : AccountId) (amount : Nat) (who : AccountId) :
    ∃ held, Moves cfg who s (s.unreserve cfg w amount) 0 0 held := by
  have hreserved := hcurrency.reserved_unreserve s.balances w amount who
  have hrest := hcurrency.unreserve_rest s.balances w amount
  refine ⟨if who = w then -(min amount (cfg.currency.reservedBalance s.balances who) : Nat) else 0,
    rfl, rfl, ?_, ?_⟩
  · change Function.update s.others w _ who = _
    rw [Function.update_apply, hrest]
    split
    · next hw =>
      subst hw
      omega
    · exact (Int.add_zero _).symm
  · change (cfg.currency.reservedBalance (cfg.currency.unreserve s.balances w amount).1 who : Int)
      = _
    rw [hreserved]
    split <;> omega

omit hcurrency in
/-- A call that only changes settings. -/
theorem settings_moves (event : Event) {s' : State σ} (who : AccountId)
    (hbalances : s'.balances = s.balances) (hothers : s'.others = s.others)
    (hevents : s'.events = s.events ++ [event]) (hreceived : event.receivedFrom who = 0)
    (hreleased : event.releasedTo who = 0) : Moves cfg who s s' 0 0 0 where
  received := by
    have h := State.received_depositEvent s event who
    rw [hreceived] at h
    rw [State.received, hevents]
    exact h
  released := by
    have h := State.released_depositEvent s event who
    rw [hreleased] at h
    rw [State.released, hevents]
    exact h
  others := by rw [hothers, Int.add_zero]
  reserved := by
    rw [hbalances]
    omega

theorem run_moves {call : Call} (h : call.run s cfg = .ok s') (who : AccountId) :
    ∃ inn out held, Moves cfg who s s' inn out held ∧
      (out = 0 ∨ call.releases = some (who, out)) := by
  cases call with
  | deposit origin amount =>
      obtain ⟨inn, hmoves⟩ := deposit_moves hcurrency h who
      exact ⟨inn, 0, 0, hmoves, .inl rfl⟩
  | withdraw origin amount =>
      obtain ⟨out, hmoves, hout⟩ := withdraw_moves hcurrency h who
      exact ⟨0, out, 0, hmoves, hout⟩
  | transferToPool origin account amount =>
      obtain ⟨out, hmoves, hout⟩ := transferToPool_moves hcurrency h who
      exact ⟨0, out, 0, hmoves, hout⟩
  | transferAwardToUser origin account amount =>
      obtain ⟨inn, hmoves⟩ := transferAwardToUser_moves hcurrency h who
      exact ⟨inn, 0, 0, hmoves, .inl rfl⟩
  | setTimegraphAccount origin account =>
      obtain ⟨_, -, h⟩ := bind_ok h
      obtain ⟨_, -, h⟩ := bind_ok h
      cases h
      exact ⟨0, 0, 0, settings_moves _ who rfl rfl rfl rfl rfl, .inl rfl⟩
  | setRewardPoolAccount origin account =>
      obtain ⟨_, -, h⟩ := bind_ok h
      obtain ⟨_, -, h⟩ := bind_ok h
      cases h
      exact ⟨0, 0, 0, settings_moves _ who rfl rfl rfl rfl rfl, .inl rfl⟩
  | setThreshold origin amount =>
      obtain ⟨_, -, h⟩ := bind_ok h
      obtain ⟨_, -, h⟩ := bind_ok h
      cases h
      exact ⟨0, 0, 0, settings_moves _ who rfl rfl rfl rfl rfl, .inl rfl⟩
  | reserve w amount =>
      obtain ⟨held, hmoves⟩ := reserve_moves hcurrency h who
      exact ⟨0, 0, held, hmoves, .inl rfl⟩
  | unreserve w amount =>
      cases h
      obtain ⟨held, hmoves⟩ := unreserve_moves hcurrency s w amount who
      exact ⟨0, 0, held, hmoves, .inl rfl⟩

end Calls

/-! ## Runs -/

/-- The books balance: what is reserved on an account is what other pallets
hold, and what the account has put in and not taken out. -/
def Balanced (cfg : Config σ) (s : State σ) : Prop :=
  ∀ who, (cfg.currency.reservedBalance s.balances who : Int) + s.released who =
    s.others who + s.received who

theorem Balanced.step {cfg : Config σ} (hcurrency : cfg.currency.Lawful) {s s' : State σ}
    {call : Call} (h : Balanced cfg s) (hexec : exec cfg s call = some s') : Balanced cfg s' := by
  cases hexec
  refine Pallet.dispatch_rule h fun s' hrun who => ?_
  obtain ⟨inn, out, held, hmoves, _⟩ := run_moves hcurrency hrun who
  have hwho := h who
  have hreserved := hmoves.reserved
  have hothers := hmoves.others
  rw [hmoves.received, hmoves.released]
  omega

/-- A release that leaves the reserves of other pallets alone. -/
def Covered (cfg : Config σ) (s : State σ) (call : Call) : Prop :=
  ∀ who amount, call.releases = some (who, amount) → (∃ s', call.run s cfg = .ok s') →
    s.others who + amount ≤ cfg.currency.reservedBalance s.balances who

theorem released_le_step {cfg : Config σ} (hcurrency : cfg.currency.Lawful) {s s' : State σ}
    {call : Call} (hbalanced : Balanced cfg s) (hcovered : Covered cfg s call)
    (h : ∀ who, s.released who ≤ s.received who) (hexec : exec cfg s call = some s')
    (who : AccountId) : s'.released who ≤ s'.received who := by
  cases hexec
  refine Pallet.dispatch_rule (P := fun s' : State σ => s'.released who ≤ s'.received who)
    (h who) fun s' hrun => ?_
  obtain ⟨inn, out, held, hmoves, hout⟩ := run_moves hcurrency hrun who
  have hwho := hbalanced who
  have hle := h who
  rw [hmoves.received, hmoves.released]
  rcases hout with hout | hout
  · omega
  · have hcovers := hcovered who out hout ⟨s', hrun⟩
    omega

/-- No account gets more out than was put in for it, as long as releases
leave the reserves of other pallets alone. -/
theorem released_le_received {cfg : Config σ} (hcurrency : cfg.currency.Lawful) {balances : σ}
    {timegraphAccount rewardPoolAccount : AccountId} {threshold : Nat} {calls : List Call}
    {s : State σ}
    (hrun : Run (exec cfg) (Covered cfg)
      (.genesis cfg balances timegraphAccount rewardPoolAccount threshold) calls s)
    (who : AccountId) : s.released who ≤ s.received who := by
  have hinv : Balanced cfg s ∧ ∀ who, s.released who ≤ s.received who := by
    refine hrun.invariant (P := fun _ s => Balanced cfg s ∧ ∀ who, s.released who ≤ s.received who)
      ⟨fun who => rfl, fun who => Nat.le_refl _⟩ fun _ h hok hexec => ?_
    exact ⟨h.1.step hcurrency hexec, released_le_step hcurrency h.1 hok h.2 hexec⟩
  exact hinv.2 who

/-! A currency that refuses only what is not there: free and reserved
balances. -/

abbrev ExampleBalances : Type := (AccountId → Nat) × (AccountId → Nat)

def exampleCurrency : ReservableCurrency AccountId ExampleBalances where
  freeBalance b who := b.1 who
  reservedBalance b who := b.2 who
  reserve b who amount :=
    if amount ≤ b.1 who then
      some (Function.update b.1 who (b.1 who - amount), Function.update b.2 who (b.2 who + amount))
    else none
  unreserve b who amount :=
    let actual := min amount (b.2 who)
    ((Function.update b.1 who (b.1 who + actual), Function.update b.2 who (b.2 who - actual)),
      amount - actual)
  transfer b source dest amount :=
    if amount ≤ b.1 source then
      let free := Function.update b.1 source (b.1 source - amount)
      some (Function.update free dest (free dest + amount), b.2)
    else none

theorem exampleCurrency_lawful : exampleCurrency.Lawful where
  reserved_reserve {b who amount b'} h a := by
    obtain ⟨_, h⟩ := Option.ite_none_right_eq_some.mp h
    cases h
    change Function.update b.2 who _ a = b.2 a + _
    rw [Function.update_apply]
    split
    · next ha => rw [ha]
    · rfl
  reserved_unreserve b who amount a := by
    change Function.update b.2 who _ a = b.2 a - _
    rw [Function.update_apply]
    split
    · next ha =>
      rw [ha]
      omega
    · rfl
  unreserve_rest b who amount := by
    change amount - min amount (b.2 who) = amount - b.2 who
    omega
  reserved_transfer {b source dest amount b'} h a := by
    obtain ⟨_, h⟩ := Option.ite_none_right_eq_some.mp h
    cases h
    rfl

def exampleConfig : Config ExampleBalances := ⟨exampleCurrency, fun origin => origin = .root⟩

def exampleUser : AccountId := Vector.replicate 32 1

def exampleTimegraph : AccountId := Vector.replicate 32 2

def examplePool : AccountId := Vector.replicate 32 3

/-- Everyone has 100 free; the threshold is 1. -/
def exampleGenesis : State ExampleBalances :=
  .genesis exampleConfig (fun _ => 100, fun _ => 0) exampleTimegraph examplePool 1

/-- `Covered`, as a check. -/
def isCovered (cfg : Config σ) (s : State σ) (call : Call) : Bool :=
  match call.releases with
  | none => true
  | some (who, amount) =>
      s.others who + amount ≤ cfg.currency.reservedBalance s.balances who

theorem covered_of_check (cfg : Config σ) (s : State σ) (call : Call)
    (h : isCovered cfg s call = true) : Covered cfg s call := by
  intro who amount hreleases _
  rw [isCovered, hreleases] at h
  exact of_decide_eq_true h

/-- A deposit, an award, a withdrawal and a transfer to the pool, while
another pallet holds a reserve. -/
def exampleCalls : List Call :=
  [.reserve exampleUser 5, .deposit (.signed exampleUser) 20,
    .transferAwardToUser (.signed exampleTimegraph) exampleUser 10,
    .withdraw (.signed exampleUser) 12,
    .transferToPool (.signed exampleTimegraph) exampleUser 18]

def exampleState : State ExampleBalances :=
  Run.endState (exec exampleConfig) exampleGenesis exampleCalls

theorem exampleState_run :
    Run (exec exampleConfig) (Covered exampleConfig) exampleGenesis exampleCalls exampleState :=
  Run.of_guarded (covered_of_check exampleConfig) (by decide +kernel)

theorem released_le_received_all :
    exampleState.released exampleUser = 30 ∧
      exampleState.released exampleUser ≤ exampleState.received exampleUser :=
  ⟨by decide +kernel, released_le_received exampleCurrency_lawful exampleState_run exampleUser⟩

/-- What another pallet has reserved is withdrawn, without any deposit. -/
theorem withdraws_reserve_of_others :
    ∃ s, Run (exec exampleConfig) (fun _ _ => True) exampleGenesis
        [.reserve exampleUser 5, .withdraw (.signed exampleUser) 4] s ∧
      s.received exampleUser = 0 ∧ s.released exampleUser = 4 :=
  ⟨_, Run.to_endState (fun _ _ _ => trivial) (by decide +kernel), by decide +kernel,
    by decide +kernel⟩

end Timegraph

end Timechain
