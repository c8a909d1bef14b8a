import Timechain.LaunchPallet

/-!
# Launch stages and the tokens issued

A stage should hand out tokens that exist. Those that deposit tokens or move
claims do. Minting claims burns the tokens of an entry before it asks for
the claim, and an entry that is refused then is not undone: the tokens are
gone.
-/

namespace Timechain

namespace Launch

open Relation (ReflTransGen)

variable {σ : Type}

/-- Tokens issued or claimed, as a number. -/
def worth (cfg : Config σ) (s : State σ) : Nat :=
  cfg.currency.totalIssuance s.balances + s.store.total

theorem totalIssuance_eq {cfg : Config σ} {s : State σ} (hfits : worth cfg s < 2 ^ 128) :
    totalIssuance cfg s = .ok (worth cfg s) := by
  rw [totalIssuance, addChecked_of_lt hfits]
  rfl

theorem Acts.worth {cfg : Config σ} (hcurrency : cfg.currency.Lawful) {s s' : State σ}
    (h : Acts cfg s s') : worth cfg s' = worth cfg s := by
  cases h with
  | report h => rfl
  | transfer h => exact congrArg (· + s.store.total) (hcurrency.issuance_transfer h)
  | lock h => exact congrArg (· + s.store.total) (hcurrency.issuance_addVesting h)
  | unlock h => exact congrArg (· + s.store.total) (hcurrency.issuance_removeVesting h)
  | move h =>
      exact congrArg (cfg.currency.totalIssuance s.balances + ·) (Airdrop.moveAirdrop_total h)

theorem acts_worth {cfg : Config σ} (hcurrency : cfg.currency.Lawful) {s s' : State σ}
    (h : ReflTransGen (Acts cfg) s s') : worth cfg s' = worth cfg s := by
  induction h with
  | refl => rfl
  | tail _ hact ih => exact (hact.worth hcurrency).trans ih

/-! A claim is minted for what has been burnt, or the burnt tokens are gone.
Which entries are paid for depends only on the wallet. -/

/-- The entries the wallet can pay for, one after the other. -/
def funded (cfg : Config σ) (wallet : AccountId) : σ → List Grant → List Grant
  | _, [] => []
  | balances, grant :: grants =>
      match cfg.currency.withdraw balances wallet grant.amount with
      | some balances => grant :: funded cfg wallet balances grants
      | none => funded cfg wallet balances grants

/-- Entries for which claims can be minted: large enough, and neither a
claim nor another entry of the stage before it is for the same target. -/
structure Mintable (cfg : Config σ) (claims : StorageMap AccountId Nat) (grants : List Grant) :
    Prop where
  enough : ∀ grant ∈ grants, grant.amount ≠ 0 → cfg.minimumBalance ≤ grant.amount
  unclaimed : ∀ grant ∈ grants, grant.amount ≠ 0 → claims.get grant.target = none
  distinct : grants.Pairwise fun earlier grant =>
    earlier.target = grant.target → grant.amount ≠ 0 → earlier.amount < cfg.minimumBalance

section Mint

variable {cfg : Config σ} {claims : StorageMap AccountId Nat} {grant : Grant} {grants : List Grant}

theorem mintable_nil : Mintable cfg claims [] :=
  ⟨fun _ h => absurd h List.not_mem_nil, fun _ h => absurd h List.not_mem_nil, .nil⟩

theorem mintable_cons :
    Mintable cfg claims (grant :: grants) ↔
      (grant.amount ≠ 0 → cfg.minimumBalance ≤ grant.amount ∧ claims.get grant.target = none) ∧
      (∀ later ∈ grants, grant.target = later.target → later.amount ≠ 0 →
        grant.amount < cfg.minimumBalance) ∧
      Mintable cfg claims grants := by
  constructor
  · intro h
    have hdistinct := List.pairwise_cons.mp h.distinct
    exact ⟨fun hne => ⟨h.enough _ List.mem_cons_self hne, h.unclaimed _ List.mem_cons_self hne⟩,
      hdistinct.1, fun g hg => h.enough g (List.mem_cons_of_mem _ hg),
      fun g hg => h.unclaimed g (List.mem_cons_of_mem _ hg), hdistinct.2⟩
  · rintro ⟨hhead, hlater, h⟩
    exact ⟨List.forall_mem_cons.mpr ⟨fun hne => (hhead hne).1, h.enough⟩,
      List.forall_mem_cons.mpr ⟨fun hne => (hhead hne).2, h.unclaimed⟩,
      List.pairwise_cons.mpr ⟨hlater, h.distinct⟩⟩

/-- A claim that could be minted excludes later entries for its target. -/
theorem mintable_minted (hmin : cfg.minimumBalance ≤ grant.amount)
    (hnone : claims.get grant.target = none) :
    Mintable cfg (claims.insert grant.target grant.amount) grants ↔
      Mintable cfg claims (grant :: grants) := by
  rw [mintable_cons]
  constructor
  · intro h
    have hother : ∀ later ∈ grants, later.amount ≠ 0 → later.target ≠ grant.target := by
      intro later hlater hne heq
      have hget := h.unclaimed later hlater hne
      rw [heq, StorageMap.get_insert_self] at hget
      cases hget
    refine ⟨fun _ => ⟨hmin, hnone⟩, fun later hlater heq hne => ?_, h.enough,
      fun later hlater hne => ?_, h.distinct⟩
    · exact absurd heq.symm (hother later hlater hne)
    · rw [← h.unclaimed later hlater hne, StorageMap.get_insert_of_ne _ _ (hother later hlater hne)]
  · rintro ⟨-, hlater, h⟩
    refine ⟨h.enough, fun later hmem hne => ?_, h.distinct⟩
    have hother : later.target ≠ grant.target := by
      intro heq
      have hsmall := hlater later hmem heq.symm hne
      omega
    rw [StorageMap.get_insert_of_ne _ _ hother]
    exact h.unclaimed later hmem hne

/-- An entry that is refused costs its amount. -/
theorem mintable_refused (hrefused : ¬(cfg.minimumBalance ≤ grant.amount ∧
    claims.get grant.target = none)) :
    Mintable cfg claims (grant :: grants) ↔ grant.amount = 0 ∧ Mintable cfg claims grants := by
  rw [mintable_cons]
  constructor
  · rintro ⟨hhead, -, h⟩
    exact ⟨by_contra fun hne => hrefused (hhead hne), h⟩
  · rintro ⟨hzero, h⟩
    refine ⟨fun hne => absurd hzero hne, fun later hmem heq hne => ?_, h⟩
    refine Nat.lt_of_not_le fun hmin => hrefused ⟨hmin, ?_⟩
    rw [heq]
    exact h.unclaimed later hmem hne

end Mint

/-- What a round of `mint` does. -/
inductive Minted (cfg : Config σ) (s s' : State σ) (grant : Grant) (balances : σ) : Prop
  | claimed (hmin : cfg.minimumBalance ≤ grant.amount)
      (hnone : s.store.claims.get grant.target = none)
      (hclaims : s'.store.claims = s.store.claims.insert grant.target grant.amount)
      (hbalances : s'.balances = balances) (hworth : worth cfg s' = worth cfg s)
  | lost (hrefused : ¬(cfg.minimumBalance ≤ grant.amount ∧
        s.store.claims.get grant.target = none))
      (hclaims : s'.store.claims = s.store.claims)
      (hbalances : s'.balances = balances) (hworth : worth cfg s' + grant.amount = worth cfg s)

theorem mintGrant_minted {cfg : Config σ} (hcurrency : cfg.currency.Lawful) {source : Allocation}
    {s s' : State σ} {grant : Grant} {balances : σ} (hfits : worth cfg s < 2 ^ 128)
    (hwithdraw : cfg.currency.withdraw s.balances (source.accountId cfg) grant.amount =
      some balances)
    (h : AirdropMintStage.mintGrant cfg source s grant = .ok s') :
    Minted cfg s s' grant balances := by
  have hissuance := hcurrency.issuance_withdraw hwithdraw
  have hworth : worth cfg s = cfg.currency.totalIssuance s.balances + s.store.total := rfl
  have hlost : cfg.currency.totalIssuance balances + s.store.total + grant.amount =
      worth cfg s := by omega
  rw [AirdropMintStage.mintGrant, hwithdraw] at h
  cases hmint : Airdrop.mintAirdrop cfg.toConfig s.store grant.target grant.amount
      grant.schedule with
  | ok result =>
      simp only [State.setBalances, hmint] at h
      obtain ⟨store, hstore, h⟩ := bind_ok h
      cases Pallet.okOr_ok hstore
      cases h
      obtain ⟨hmin, hnone, rfl⟩ := Airdrop.mintAirdrop_ok (by omega) hmint
      refine .claimed hmin hnone rfl rfl (Eq.trans ?_ hlost)
      exact (Nat.add_assoc ..).symm
  | error e =>
      have hs' : s'.store = s.store ∧ s'.balances = balances := by
        cases e <;> simp only [State.setBalances, hmint] at h <;> cases h <;> exact ⟨rfl, rfl⟩
      obtain ⟨hstore, hbalances⟩ := hs'
      refine .lost (Airdrop.mintAirdrop_error hmint) (by rw [hstore]) hbalances ?_
      rw [worth, hstore, hbalances]
      exact hlost

/-- The loop of `mint` destroys tokens unless it can mint a claim for every
entry it is paid for. -/
theorem mint_worth {cfg : Config σ} (hcurrency : cfg.currency.Lawful) {source : Allocation}
    {grants : List Grant} {s s' : State σ} (hfits : worth cfg s < 2 ^ 128)
    (h : AirdropMintStage.mint cfg source grants s = .ok s') :
    worth cfg s' ≤ worth cfg s ∧ (worth cfg s' = worth cfg s ↔
      Mintable cfg s.store.claims (funded cfg (source.accountId cfg) s.balances grants)) := by
  induction grants generalizing s with
  | nil =>
      cases h
      exact ⟨Nat.le_refl _, fun _ => mintable_nil, fun _ => rfl⟩
  | cons grant grants ih =>
      obtain ⟨s₁, hround, h⟩ := bind_ok (List.foldlM_cons.symm.trans h)
      cases hwithdraw : cfg.currency.withdraw s.balances (source.accountId cfg) grant.amount with
      | none =>
          rw [AirdropMintStage.mintGrant, hwithdraw] at hround
          cases hround
          rw [funded, hwithdraw]
          exact ih (s := s.depositEvent (.airdropMintTooLarge grant.target)) hfits h
      | some balances =>
          rw [funded, hwithdraw]
          cases mintGrant_minted hcurrency hfits hwithdraw hround with
          | claimed hmin hnone hclaims hbalances hworth =>
              have hrest := ih (hworth.trans_lt hfits) h
              rw [hworth, hclaims, hbalances, mintable_minted hmin hnone] at hrest
              exact hrest
          | lost hrefused hclaims hbalances hworth =>
              obtain ⟨hle, hrest⟩ := ih (by omega) h
              rw [hclaims, hbalances] at hrest
              refine ⟨by omega, ?_⟩
              rw [mintable_refused hrefused, ← hrest]
              omega

theorem execute_worth {cfg : Config σ} (hcurrency : cfg.currency.Lawful) {source : Allocation}
    {stage : Stage} {s s' : State σ} (hfits : worth cfg s < 2 ^ 128)
    (h : stage.execute cfg source s = .ok s') :
    worth cfg s' ≤ worth cfg s ∧ (worth cfg s' = worth cfg s ↔
      ∀ raw, stage = .airdropFromUnlocked raw →
        Mintable cfg s.store.claims (funded cfg (source.accountId cfg) s.balances
          (AirdropMintStage.parse cfg raw s).1)) := by
  by_cases hmints : ∃ raw, stage = .airdropFromUnlocked raw
  · obtain ⟨raw, rfl⟩ := hmints
    obtain ⟨hle, hiff⟩ := mint_worth hcurrency (s := (AirdropMintStage.parse cfg raw s).2) hfits h
    refine ⟨hle, hiff.trans ⟨fun hmint raw' hraw => ?_, fun hmint => hmint raw rfl⟩⟩
    cases hraw
    exact hmint
  · have hother := not_exists.mp hmints
    have hworth := acts_worth hcurrency (execute_acts hother h)
    exact ⟨hworth.le, fun _ raw hraw => absurd hraw (hother raw), fun _ => hworth⟩

/-- Executing a stage leaves the tokens issued and claimed as they were,
unless it mints claims and one of the entries paid for is refused. -/
theorem execute_keeps_issuance {cfg : Config σ} (hcurrency : cfg.currency.Lawful)
    {source : Allocation} {stage : Stage} {s s' : State σ}
    (hfits : cfg.currency.totalIssuance s.balances + s.store.total < 2 ^ 128)
    (h : stage.execute cfg source s = .ok s') :
    totalIssuance cfg s' = totalIssuance cfg s ↔
      ∀ raw, stage = .airdropFromUnlocked raw →
        Mintable cfg s.store.claims (funded cfg (source.accountId cfg) s.balances
          (AirdropMintStage.parse cfg raw s).1) := by
  obtain ⟨hle, hiff⟩ := execute_worth hcurrency hfits h
  rw [totalIssuance_eq (hle.trans_lt hfits), totalIssuance_eq (s := s) hfits, Except.ok.injEq]
  exact hiff

/-- The wallet of the airdrop allocation with 1000 tokens, and a claim of
another owner. -/
def exampleState : State (Wallets AccountId) where
  store :=
    { claims := StorageMap.insert ∅ (Vector.replicate 32 1) 20
      total := 20
      vesting := ∅
      events := [] }
  balances := ⟨StorageMap.insert ∅ (Allocation.airdrop.accountId exampleConfig) 1000, ∅⟩
  stageVersion := 0
  events := []

def exampleStage : Stage := .airdropFromUnlocked [⟨⟨"ab", 30⟩, none⟩, ⟨⟨"abc", 2000⟩, none⟩]

def exampleMinted : State (Wallets AccountId) :=
  (exampleStage.execute exampleConfig .airdrop exampleState).toOption.getD exampleState

theorem exampleMinted_eq :
    exampleStage.execute exampleConfig .airdrop exampleState = .ok exampleMinted :=
  ok_getD (by decide +kernel)

theorem execute_keeps_issuance_minted :
    exampleMinted.store.total = 50 ∧
      totalIssuance exampleConfig exampleMinted = totalIssuance exampleConfig exampleState := by
  refine ⟨by decide +kernel, (execute_keeps_issuance Wallets.currency_lawful (by decide +kernel)
    exampleMinted_eq).mpr ?_⟩
  rintro raw ⟨⟩
  exact ⟨by decide +kernel, by decide +kernel, by decide +kernel⟩

/-- The claim exists already: the tokens are burnt, and no claim is minted. -/
theorem existing_claim_burns :
    totalIssuance exampleConfig exampleState = .ok 1020 ∧
    ((Stage.airdropFromUnlocked [⟨⟨"a", 30⟩, none⟩]).execute exampleConfig .airdrop
      exampleState >>= totalIssuance exampleConfig) = .ok 990 := by
  decide +kernel

end Launch

end Timechain
