import Mathlib.Algebra.BigOperators.Group.List.Basic
import Mathlib.Tactic.Common
import Timechain.Storage

/-!
# Currencies

The traits through which a pallet uses the balances of the accounts:
operations on a state `σ` that the pallet does not look into. Whether an
operation is refused (locks, existential deposit) is up to the
implementation; what it does when it is not refused is the documented
behaviour, stated as laws about the quantities a pallet reasons about.
A refused operation is `none` and changes nothing.
-/

namespace Timechain

/-- `ReservableCurrency`. -/
structure ReservableCurrency (Account σ : Type) where
  freeBalance : σ → Account → Nat
  reservedBalance : σ → Account → Nat
  reserve : σ → Account → Nat → Option σ
  /-- With what could not be unreserved. -/
  unreserve : σ → Account → Nat → σ × Nat
  transfer : σ → (source dest : Account) → Nat → Option σ

/-- Funds reserved on an account are not told apart: `unreserve` takes as
much as there is. -/
structure ReservableCurrency.Lawful {Account σ : Type} [DecidableEq Account]
    (currency : ReservableCurrency Account σ) : Prop where
  reserved_reserve : ∀ {s who amount s'}, currency.reserve s who amount = some s' → ∀ a,
    currency.reservedBalance s' a = currency.reservedBalance s a + if a = who then amount else 0
  reserved_unreserve : ∀ s who amount a,
    currency.reservedBalance (currency.unreserve s who amount).1 a =
      currency.reservedBalance s a - if a = who then amount else 0
  unreserve_rest : ∀ s who amount,
    (currency.unreserve s who amount).2 = amount - currency.reservedBalance s who
  reserved_transfer : ∀ {s source dest amount s'},
    currency.transfer s source dest amount = some s' → ∀ a,
      currency.reservedBalance s' a = currency.reservedBalance s a

/-- A vesting schedule: the amount locked, how much of it is unlocked per
block, and the first block. -/
structure VestingInfo where
  locked : Nat
  perBlock : Nat
  start : Nat
deriving DecidableEq

/-- `VestingSchedule` and its `Currency`. -/
structure VestingCurrency (Account σ : Type) where
  totalIssuance : σ → Nat
  freeBalance : σ → Account → Nat
  /-- Burns what is withdrawn. -/
  withdraw : σ → Account → Nat → Option σ
  transfer : σ → (source dest : Account) → Nat → Option σ
  depositCreating : σ → Account → Nat → σ
  vestingBalance : σ → Account → Option Nat
  canAddVestingSchedule : σ → Account → VestingInfo → Bool
  addVestingSchedule : σ → Account → VestingInfo → Option σ
  removeVestingSchedule : σ → Account → (index : Nat) → Option σ

/-- No account is left with dust, and a deposit is credited in full. -/
structure VestingCurrency.Lawful {Account σ : Type}
    (currency : VestingCurrency Account σ) : Prop where
  issuance_withdraw : ∀ {s who amount s'}, currency.withdraw s who amount = some s' →
    currency.totalIssuance s' + amount = currency.totalIssuance s
  issuance_transfer : ∀ {s source dest amount s'},
    currency.transfer s source dest amount = some s' →
    currency.totalIssuance s' = currency.totalIssuance s
  issuance_deposit : ∀ s who amount,
    currency.totalIssuance (currency.depositCreating s who amount) =
      currency.totalIssuance s + amount
  issuance_addVesting : ∀ {s who info s'}, currency.addVestingSchedule s who info = some s' →
    currency.totalIssuance s' = currency.totalIssuance s
  issuance_removeVesting : ∀ {s who index s'},
    currency.removeVestingSchedule s who index = some s' →
    currency.totalIssuance s' = currency.totalIssuance s

/-- A schedule is accepted if it locks nothing, or if it could be added; one
that never unlocks what it locks could not. A transfer is not concerned with
schedules. -/
structure VestingCurrency.Vests {Account σ : Type}
    (currency : VestingCurrency Account σ) : Prop where
  perBlock_ne_zero : ∀ {s who info}, currency.canAddVestingSchedule s who info = true →
    info.locked ≠ 0 → info.perBlock ≠ 0
  isSome_add : ∀ {s who info}, (currency.addVestingSchedule s who info).isSome ↔
    info.locked = 0 ∨ currency.canAddVestingSchedule s who info = true
  canAdd_transfer : ∀ {s source dest amount s'},
    currency.transfer s source dest amount = some s' → ∀ who info,
      currency.canAddVestingSchedule s' who info = currency.canAddVestingSchedule s who info

/-! ## Wallets

A currency that refuses only what is not there: free balances, and at most
one vesting schedule for an account. -/

structure Wallets (Account : Type) where
  free : StorageMap Account Nat
  vesting : StorageMap Account VestingInfo

namespace Wallets

variable {Account : Type} [DecidableEq Account]

def balance (s : Wallets Account) (who : Account) : Nat := s.free.getD who 0

def setBalance (s : Wallets Account) (who : Account) (amount : Nat) : Wallets Account :=
  { s with free := s.free.insert who amount }

/-- A schedule that locks something has to unlock it, too. -/
def canAdd (s : Wallets Account) (who : Account) (info : VestingInfo) : Bool :=
  info.locked == 0 || info.perBlock != 0 && (s.vesting.get who).isNone

def currency : VestingCurrency Account (Wallets Account) where
  totalIssuance s := s.free.total
  freeBalance := balance
  withdraw s who amount :=
    if amount ≤ s.balance who then some (s.setBalance who (s.balance who - amount)) else none
  transfer s source dest amount :=
    if amount ≤ s.balance source then
      let s := s.setBalance source (s.balance source - amount)
      some (s.setBalance dest (s.balance dest + amount))
    else none
  depositCreating s who amount := s.setBalance who (s.balance who + amount)
  vestingBalance s who := (s.vesting.get who).map VestingInfo.locked
  canAddVestingSchedule := canAdd
  addVestingSchedule s who info :=
    if info.locked = 0 then some s
    else if s.canAdd who info then some { s with vesting := s.vesting.insert who info } else none
  removeVestingSchedule s who index :=
    if index = 0 ∧ s.vesting.containsKey who then some { s with vesting := s.vesting.remove who }
    else none

theorem total_setBalance (s : Wallets Account) (who : Account) (amount : Nat) :
    (s.setBalance who amount).free.total + s.balance who = s.free.total + amount := by
  have hinsert := s.free.total_insert who amount
  have htotal := s.free.total_eq who
  change (s.free.insert who amount).total + s.free.getD who 0 = _
  omega

theorem currency_lawful : (currency : VestingCurrency Account (Wallets Account)).Lawful where
  issuance_withdraw {s who amount s'} h := by
    obtain ⟨hle, h⟩ := Option.ite_none_right_eq_some.mp h
    cases h
    have htotal := s.total_setBalance who (s.balance who - amount)
    change (s.setBalance who _).free.total + amount = s.free.total
    omega
  issuance_transfer {s source dest amount s'} h := by
    obtain ⟨hle, h⟩ := Option.ite_none_right_eq_some.mp h
    cases h
    have hsource := s.total_setBalance source (s.balance source - amount)
    have hdest := (s.setBalance source (s.balance source - amount)).total_setBalance dest
      ((s.setBalance source (s.balance source - amount)).balance dest + amount)
    change ((s.setBalance source _).setBalance dest _).free.total = s.free.total
    omega
  issuance_deposit s who amount := by
    have htotal := s.total_setBalance who (s.balance who + amount)
    change (s.setBalance who _).free.total = s.free.total + amount
    omega
  issuance_addVesting {s who info s'} h := by
    change (if _ then _ else _) = _ at h
    split at h
    · cases h
      rfl
    · obtain ⟨_, h⟩ := Option.ite_none_right_eq_some.mp h
      cases h
      rfl
  issuance_removeVesting h := by
    obtain ⟨_, h⟩ := Option.ite_none_right_eq_some.mp h
    cases h
    rfl

theorem currency_vests : (currency : VestingCurrency Account (Wallets Account)).Vests where
  perBlock_ne_zero {s who info} h hlocked := by
    change (info.locked == 0 || info.perBlock != 0 && (s.vesting.get who).isNone) = true at h
    rw [Bool.or_eq_true, Bool.and_eq_true, beq_iff_eq, bne_iff_ne] at h
    exact (h.resolve_left hlocked).1
  isSome_add {s who info} := by
    change (if info.locked = 0 then some s
      else if s.canAdd who info then some { s with vesting := s.vesting.insert who info }
      else none).isSome = true ↔ info.locked = 0 ∨ s.canAdd who info = true
    split
    · next h => exact ⟨fun _ => .inl h, fun _ => rfl⟩
    · next h =>
        rw [or_iff_right h]
        split
        · next hadd => exact ⟨fun _ => hadd, fun _ => rfl⟩
        · next hadd => exact ⟨(by rintro ⟨⟩), fun h => absurd h hadd⟩
  canAdd_transfer h _ _ := by
    obtain ⟨_, h⟩ := Option.ite_none_right_eq_some.mp h
    cases h
    rfl

end Wallets

/-! ## Dispatch -/

namespace Pallet

/-- `ensure!`. -/
def ensure {ε : Type} (condition : Bool) (e : ε) : Except ε Unit :=
  if condition then .ok () else .error e

/-- `ok_or`, `map_err`. -/
def okOr {ε α : Type} (x : Option α) (e : ε) : Except ε α :=
  match x with
  | some a => .ok a
  | none => .error e

theorem ensure_ok {ε : Type} {condition : Bool} {e : ε} {u : Unit}
    (h : ensure condition e = .ok u) : condition = true := by
  rw [ensure] at h
  split at h
  · assumption
  · cases h

theorem okOr_ok {ε α : Type} {x : Option α} {e : ε} {a : α} (h : okOr x e = .ok a) :
    x = some a := by
  cases x with
  | none => cases h
  | some b =>
      cases h
      rfl

/-- A call that fails is rolled back. -/
def dispatch {ε σ : Type} (s : σ) (call : Except ε σ) : σ :=
  match call with
  | .ok s => s
  | .error _ => s

/-- The rule for calls: what a successful one keeps, every one keeps. -/
theorem dispatch_rule {ε σ : Type} {P : σ → Prop} {s : σ} {call : Except ε σ} (hs : P s)
    (hcall : ∀ s', call = .ok s' → P s') : P (dispatch s call) := by
  cases call with
  | ok s' => exact hcall s' rfl
  | error e => exact hs

end Pallet

end Timechain
