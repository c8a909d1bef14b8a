import Timechain.Sharing
import Timechain.Storage

/-!
# Distributed key generation

One member's part in the generation of a shard's key (`tss/src/dkg.rs`).
The instance draws a secret polynomial and publishes its commitment
(`Commit`), waits until it is told the commitment of the whole group
(`on_commit`), sends every other member its value of the polynomial (`Send`)
and completes when it has one value from each of them. Values may arrive at
any time, also before the instance has a polynomial of its own.

What the crate takes from FROST is a parameter (`DkgFrost`), and what the
library documents about it a hypothesis (`DkgFrost.Lawful`). `part1` draws
random numbers, so it is an argument of the poll that calls it. The order
in which a `HashMap` is read is an argument, too (`order`). The `unwrap` of
a poll is its `error`.

`Ceremony` fixes what the members draw, one polynomial each, and `Honest`
says what an instance may hold in it. Nothing an honest instance is polled
for fails (`Honest.polled`): its share is the value of the sum of all
polynomials, and the group commitment is the published sum.
-/

namespace Timechain

namespace Keygen

open Polynomial Sharing

/-- FROST identifies a member by a nonzero scalar. -/
abbrev Identifier (K : Type) [Zero K] : Type := {x : K // x ≠ 0}

structure SecretPackage (K : Type) where
  coefficients : List K

/-- `round2::Package`, the content of a `DkgMessage`. -/
structure DkgMessage (K : Type) where
  signingShare : K

structure SecretShare (K G : Type) [Zero K] where
  identifier : Identifier K
  signingShare : K
  commitment : List G

variable {K G : Type} [Field K] [AddCommGroup G] [Module K G]

/-- The FROST library, as far as key generation uses it. A
`VerifiableSecretSharingCommitment` is the list of its points. -/
structure DkgFrost (K G : Type) [Field K] [AddCommGroup G] [Module K G] where
  Error : Type
  ProofOfKnowledge : Type
  KeyPackage : Type
  PublicKeyPackage : Type
  generator : G
  /-- `SigningShare::from_coefficients`. -/
  fromCoefficients : List K → Identifier K → K
  /-- `KeyPackage::try_from`. -/
  tryFrom : SecretShare K G → Except Error KeyPackage
  signingShare : KeyPackage → K
  /-- `PublicKeyPackage::from_commitment`. -/
  fromCommitment : List (Identifier K) → List G → Except Error PublicKeyPackage
  verifyingKey : PublicKeyPackage → G

structure Round1Package (frost : DkgFrost K G) where
  commitment : List G
  proofOfKnowledge : frost.ProofOfKnowledge

/-- A call of `part1`: identifier, number of members, threshold. -/
abbrev Part1 (frost : DkgFrost K G) : Type :=
  Identifier K → Nat → Nat → Except frost.Error (SecretPackage K × Round1Package frost)

/-- What the library documents. A group of prime order `p` is a module over
the field with `p` elements, generated by every element but zero. -/
structure DkgFrost.Lawful (frost : DkgFrost K G) : Prop where
  generator_ne_zero : frost.generator ≠ 0
  fromCoefficients_eq : ∀ cs id, cs ≠ [] → frost.fromCoefficients cs id = (poly cs).eval id.val
  /-- Feldman's equation. -/
  tryFrom_iff : ∀ s : SecretShare K G, s.commitment ≠ [] →
    ((∃ keyPackage, frost.tryFrom s = .ok keyPackage) ↔
      s.signingShare • frost.generator = horner s.identifier.val s.commitment)
  signingShare_tryFrom : ∀ s keyPackage, frost.tryFrom s = .ok keyPackage →
    frost.signingShare keyPackage = s.signingShare
  fromCommitment_ok : ∀ members commitment, commitment ≠ [] →
    ∃ publicKeyPackage, frost.fromCommitment members commitment = .ok publicKeyPackage
  verifyingKey_fromCommitment : ∀ members commitment publicKeyPackage,
    frost.fromCommitment members commitment = .ok publicKeyPackage →
    commitment.head? = some (frost.verifyingKey publicKeyPackage)

inductive DkgAction (frost : DkgFrost K G) where
  | commit (commitment : List G) (proofOfKnowledge : frost.ProofOfKnowledge)
  | send (msgs : List (Identifier K × DkgMessage K))
  | complete (keyPackage : frost.KeyPackage) (publicKeyPackage : frost.PublicKeyPackage)
      (commitment : List G)
  | failure (error : frost.Error)

structure Dkg (frost : DkgFrost K G) where
  id : Identifier K
  members : List (Identifier K)
  threshold : Nat
  secretPackage : Option (SecretPackage K)
  commitment : Option (List G)
  sentRound2Packages : Bool
  round2Packages : StorageMap (Identifier K) (DkgMessage K)

namespace Dkg

variable {frost : DkgFrost K G}

def new (id : Identifier K) (members : List (Identifier K)) (threshold : Nat) : Dkg frost where
  id := id
  members := members
  threshold := threshold
  secretPackage := none
  commitment := none
  sentRound2Packages := false
  round2Packages := ∅

def onCommit (d : Dkg frost) (commitment : List G) : Dkg frost :=
  { d with commitment := some commitment }

/-- The messages of the second round, one for each other member. -/
def round2Messages [DecidableEq K] (d : Dkg frost) (secretPackage : SecretPackage K) :
    List (Identifier K × DkgMessage K) :=
  (d.members.filter (· ≠ d.id)).map fun peer =>
    (peer, ⟨frost.fromCoefficients secretPackage.coefficients peer⟩)

/-- All shares received and the instance's own, added up. -/
def combine (d : Dkg frost) (order : Identifier K → Nat) (secretPackage : SecretPackage K) : K :=
  ((d.round2Packages.iter order).map (fun e => e.2.signingShare) ++
    [frost.fromCoefficients secretPackage.coefficients d.id]).foldl (· + ·) 0

variable [DecidableEq K]

def onMessage (d : Dkg frost) (peer : Identifier K) (msg : DkgMessage K) : Dkg frost :=
  { d with round2Packages := d.round2Packages.insert peer msg }

def nextAction (d : Dkg frost) (part1 : Part1 frost) (order : Identifier K → Nat) :
    Except frost.Error (Option (DkgAction frost) × Dkg frost) :=
  match d.secretPackage with
  | none =>
      -- the number of members is cast to a `u16`
      match part1 d.id (d.members.length % 2 ^ 16) d.threshold with
      | .error error => .ok (some (.failure error), d)
      | .ok (secretPackage, round1Package) =>
          .ok (some (.commit round1Package.commitment round1Package.proofOfKnowledge),
            { d with secretPackage := some secretPackage })
  | some secretPackage =>
      match d.commitment with
      | none => .ok (none, d)
      | some commitment =>
          if d.sentRound2Packages = false then
            .ok (some (.send (d.round2Messages secretPackage)),
              { d with sentRound2Packages := true })
          else if d.round2Packages.len ≠ d.members.length - 1 then .ok (none, d)
          else
            match frost.tryFrom ⟨d.id, d.combine order secretPackage, commitment⟩ with
            | .error error => .ok (some (.failure error), d)
            | .ok keyPackage =>
                match frost.fromCommitment d.members commitment with
                -- `unwrap`
                | .error error => .error error
                | .ok publicKeyPackage =>
                    .ok (some (.complete keyPackage publicKeyPackage commitment), d)

end Dkg

/-! ## Honest members -/

/-- The members of a shard, each with the polynomial that `part1` draws for
it. -/
structure Ceremony (frost : DkgFrost K G) where
  members : List (Identifier K)
  threshold : Nat
  coefficients : Identifier K → List K
  proofOfKnowledge : Identifier K → frost.ProofOfKnowledge
  nodup : members.Nodup
  pos : 1 ≤ threshold
  le : threshold ≤ members.length
  length_coefficients : ∀ m ∈ members, (coefficients m).length = threshold

namespace Ceremony

variable {frost : DkgFrost K G} (c : Ceremony frost)

def commitment (m : Identifier K) : List G := (c.coefficients m).map (· • frost.generator)

def part1 : Part1 frost := fun m _ _ =>
  .ok (⟨c.coefficients m⟩, ⟨c.commitment m, c.proofOfKnowledge m⟩)

/-- The coordinate-wise sum of the members' commitments. -/
def groupCommitment : List G := sumLists c.threshold (c.members.map c.commitment)

/-- The value of the polynomial of `j` at `m`. -/
def share (j m : Identifier K) : K := horner m.val (c.coefficients j)

/-- The polynomial nobody knows. -/
noncomputable def polynomial : K[X] := (c.members.map fun j => poly (c.coefficients j)).sum

theorem coefficients_ne_nil {m : Identifier K} (hm : m ∈ c.members) : c.coefficients m ≠ [] := by
  have hlen := c.length_coefficients m hm
  have hpos := c.pos
  rw [← List.length_pos_iff]
  omega

theorem length_commitment :
    ∀ cs ∈ c.members.map c.commitment, cs.length = c.threshold := by
  intro cs hcs
  obtain ⟨m, hm, rfl⟩ := List.mem_map.mp hcs
  rw [commitment, List.length_map, c.length_coefficients m hm]

theorem groupCommitment_ne_nil : c.groupCommitment ≠ [] := by
  have hlen := length_sumLists c.length_commitment
  rw [← List.length_pos_iff, groupCommitment, hlen]
  exact c.pos

theorem eval_polynomial (x : K) :
    c.polynomial.eval x = (c.members.map fun j => horner x (c.coefficients j)).sum := by
  have h := eval_sum_poly x (c.members.map c.coefficients)
  rwa [List.map_map, List.map_map] at h

theorem polynomial_degree_lt : c.polynomial.degree < c.threshold := by
  rw [← mem_degreeLT]
  have h := @sum_poly_mem_degreeLT _ _ (c.members.map c.coefficients) c.threshold fun cs hcs => by
    obtain ⟨m, hm, rfl⟩ := List.mem_map.mp hcs
    exact c.length_coefficients m hm
  rwa [List.map_map] at h

/-- The group commitment publishes the sum of the polynomials. -/
theorem horner_groupCommitment (x : K) :
    horner x c.groupCommitment = c.polynomial.eval x • frost.generator := by
  have hvalues : ((c.members.map c.commitment).map (horner x)) =
      (c.members.map fun j => horner x (c.coefficients j)).map (· • frost.generator) := by
    rw [List.map_map, List.map_map]
    exact List.map_congr_left fun m _ => horner_map_smul x (c.coefficients m) frost.generator
  rw [groupCommitment, horner_sumLists x c.length_commitment, hvalues, eval_polynomial,
    ← List.sum_smul]

variable [DecidableEq K]

/-- What an instance of member `m` may hold. -/
structure Honest (m : Identifier K) (d : Dkg frost) : Prop where
  id : d.id = m
  members : d.members = c.members
  secret : ∀ p, d.secretPackage = some p → p.coefficients = c.coefficients m
  commitment : ∀ x, d.commitment = some x → x = c.groupCommitment
  packages : ∀ j msg, d.round2Packages.get j = some msg →
    j ∈ c.members ∧ j ≠ m ∧ msg.signingShare = c.share j m
  sent : d.sentRound2Packages = true → d.secretPackage ≠ none ∧ d.commitment ≠ none

/-- A package from every other member. -/
def Served (m : Identifier K) (d : Dkg frost) : Prop :=
  ∀ j ∈ c.members, j ≠ m → d.round2Packages.containsKey j = true

variable {c} {m : Identifier K} {d : Dkg frost}

theorem Honest.new (m : Identifier K) : c.Honest m (.new m c.members c.threshold) where
  id := rfl
  members := rfl
  secret _ h := by cases h
  commitment _ h := by cases h
  packages _ _ h := by cases h
  sent h := by cases h

theorem Honest.onCommit (h : c.Honest m d) : c.Honest m (d.onCommit c.groupCommitment) :=
  { h with
    commitment := fun _ hx => (Option.some.inj hx).symm
    sent := fun hsent => ⟨(h.sent hsent).1, Option.some_ne_none _⟩ }

theorem Honest.onMessage (h : c.Honest m d) {j : Identifier K} {msg : DkgMessage K}
    (hj : j ∈ c.members) (hne : j ≠ m) (hmsg : msg.signingShare = c.share j m) :
    c.Honest m (d.onMessage j msg) := by
  refine { h with packages := fun k msg' hget => ?_ }
  rw [Dkg.onMessage, StorageMap.get_insert] at hget
  split at hget
  · next hk =>
    cases hget
    subst hk
    exact ⟨hj, hne, hmsg⟩
  · exact h.packages k msg' hget

/-- The keys of the packages, in the order they are read. -/
theorem Honest.keys_subset (h : c.Honest m d) (order : Identifier K → Nat) :
    (d.round2Packages.iter order).map Prod.fst ⊆ c.members.erase m := by
  intro j hj
  obtain ⟨⟨_, msg⟩, hmem, rfl⟩ := List.mem_map.mp hj
  obtain ⟨hj, hne, _⟩ := h.packages _ msg (StorageMap.mem_iter.mp hmem)
  exact (List.mem_erase_of_ne hne).mpr hj

/-- The count of packages tells that all are there. -/
theorem Honest.keys_perm (h : c.Honest m d) (hm : m ∈ c.members) (order : Identifier K → Nat)
    (hlen : d.round2Packages.len = d.members.length - 1) :
    ((d.round2Packages.iter order).map Prod.fst).Perm (c.members.erase m) := by
  have hsub := (StorageMap.iter_keys_nodup order d.round2Packages).subperm (h.keys_subset order)
  refine hsub.perm_of_length_le (Nat.le_of_eq ?_)
  rw [List.length_erase_of_mem hm, List.length_map, StorageMap.length_iter, hlen, h.members]

/-- The packages are counted, not looked up: `m` itself is never among them. -/
theorem Honest.served_iff (h : c.Honest m d) (hm : m ∈ c.members) :
    c.Served m d ↔ d.round2Packages.len = d.members.length - 1 := by
  constructor
  · intro hserved
    have hsub : c.members.erase m ⊆ (d.round2Packages.iter fun _ => 0).map Prod.fst := by
      intro j hj
      obtain ⟨hne, hj⟩ := c.nodup.mem_erase_iff.mp hj
      exact StorageMap.mem_map_iter.mpr (StorageMap.containsKey_iff.mp (hserved j hj hne))
    have hge := ((c.nodup.erase m).subperm hsub).length_le
    have hle := ((StorageMap.iter_keys_nodup _ d.round2Packages).subperm
      (h.keys_subset fun _ => 0)).length_le
    rw [List.length_map, StorageMap.length_iter, List.length_erase_of_mem hm] at hge hle
    rw [h.members]
    exact Nat.le_antisymm hle hge
  · intro hlen j hj hne
    have hmem := (h.keys_perm hm (fun _ => 0) hlen).mem_iff.mpr ((List.mem_erase_of_ne hne).mpr hj)
    exact StorageMap.containsKey_iff.mpr (StorageMap.mem_map_iter.mp hmem)

theorem Honest.combine_eq (h : c.Honest m d) (hfrost : frost.Lawful) (hm : m ∈ c.members)
    (order : Identifier K → Nat) {p : SecretPackage K} (hp : d.secretPackage = some p)
    (hlen : d.round2Packages.len = d.members.length - 1) :
    d.combine order p = c.polynomial.eval m.val := by
  have hown : frost.fromCoefficients p.coefficients d.id = c.share m m := by
    rw [h.secret p hp, h.id, hfrost.fromCoefficients_eq _ _ (c.coefficients_ne_nil hm), eval_poly,
      share]
  have hvalues : (d.round2Packages.iter order).map (fun e => e.2.signingShare) =
      ((d.round2Packages.iter order).map Prod.fst).map (c.share · m) := by
    rw [List.map_map]
    exact List.map_congr_left fun e he => (h.packages e.1 e.2 (StorageMap.mem_iter.mp he)).2.2
  have hperm : ((d.round2Packages.iter order).map Prod.fst ++ [m]).Perm c.members :=
    ((h.keys_perm hm order hlen).append_right [m]).trans
      ((List.perm_append_singleton m _).trans (List.perm_cons_erase hm).symm)
  calc d.combine order p
      = (((d.round2Packages.iter order).map Prod.fst ++ [m]).map (c.share · m)).sum := by
        rw [Dkg.combine, hown, hvalues, ← List.sum_eq_foldl, List.map_append, List.map_singleton]
    _ = (c.members.map (c.share · m)).sum := (hperm.map _).sum_eq
    _ = c.polynomial.eval m.val := (c.eval_polynomial m.val).symm

/-- How a poll of an honest instance ends. -/
inductive Polled (c : Ceremony frost) (m : Identifier K) (d : Dkg frost) :
    Option (DkgAction frost) → Dkg frost → Prop
  | commit : d.secretPackage = none →
      Polled c m d (some (.commit (c.commitment m) (c.proofOfKnowledge m)))
        { d with secretPackage := some ⟨c.coefficients m⟩ }
  | uncommitted : d.secretPackage ≠ none → d.commitment = none → Polled c m d none d
  | send : d.secretPackage ≠ none → d.commitment ≠ none → d.sentRound2Packages = false →
      Polled c m d
        (some (.send ((c.members.filter (· ≠ m)).map fun peer => (peer, ⟨c.share m peer⟩))))
        { d with sentRound2Packages := true }
  | unserved : d.secretPackage ≠ none → d.commitment ≠ none → d.sentRound2Packages = true →
      ¬ c.Served m d → Polled c m d none d
  | complete {keyPackage : frost.KeyPackage} {publicKeyPackage : frost.PublicKeyPackage} :
      d.secretPackage ≠ none → d.commitment ≠ none → d.sentRound2Packages = true →
      c.Served m d → frost.signingShare keyPackage = c.polynomial.eval m.val →
      c.groupCommitment.head? = some (frost.verifyingKey publicKeyPackage) →
      Polled c m d (some (.complete keyPackage publicKeyPackage c.groupCommitment)) d

theorem Honest.round2Messages_eq (h : c.Honest m d) (hfrost : frost.Lawful) (hm : m ∈ c.members)
    {p : SecretPackage K} (hp : d.secretPackage = some p) :
    d.round2Messages p =
      (c.members.filter (· ≠ m)).map fun peer => (peer, ⟨c.share m peer⟩) := by
  rw [Dkg.round2Messages, h.members, h.id]
  refine List.map_congr_left fun peer _ => ?_
  rw [h.secret p hp, hfrost.fromCoefficients_eq _ _ (c.coefficients_ne_nil hm), eval_poly, share]

/-- The combined share meets Feldman's equation for the group commitment. -/
theorem Honest.tryFrom_ok (h : c.Honest m d) (hfrost : frost.Lawful) :
    ∃ keyPackage, frost.tryFrom ⟨d.id, c.polynomial.eval m.val, c.groupCommitment⟩ =
      .ok keyPackage := by
  rw [hfrost.tryFrom_iff _ c.groupCommitment_ne_nil, h.id]
  exact (c.horner_groupCommitment m.val).symm

theorem Honest.polled (h : c.Honest m d) (hfrost : frost.Lawful) (hm : m ∈ c.members)
    (order : Identifier K → Nat) :
    ∃ action d', d.nextAction c.part1 order = .ok (action, d') ∧ Polled c m d action d' := by
  rw [Dkg.nextAction]
  split
  · next hsecret =>
    cases h.id
    exact ⟨_, _, rfl, .commit hsecret⟩
  · next p hsecret =>
    have hsecret' : d.secretPackage ≠ none := by simp [hsecret]
    split
    · next hcommit => exact ⟨_, _, rfl, .uncommitted hsecret' hcommit⟩
    · next commitment hcommit =>
      have hcommit' : d.commitment ≠ none := by simp [hcommit]
      cases h.commitment _ hcommit
      split
      · next hsent =>
        rw [h.round2Messages_eq hfrost hm hsecret]
        exact ⟨_, _, rfl, .send hsecret' hcommit' hsent⟩
      · next hsent =>
        have hsent' := Bool.eq_true_of_not_eq_false hsent
        split
        · next hlen =>
          exact ⟨_, _, rfl, .unserved hsecret' hcommit' hsent' fun hserved =>
            hlen ((h.served_iff hm).mp hserved)⟩
        · next hlen =>
          have hlen := Classical.not_not.mp hlen
          obtain ⟨keyPackage, hkey⟩ := h.tryFrom_ok hfrost
          obtain ⟨publicKeyPackage, hpublic⟩ :=
            hfrost.fromCommitment_ok d.members _ c.groupCommitment_ne_nil
          rw [h.combine_eq hfrost hm order hsecret hlen, hkey, hpublic]
          exact ⟨_, _, rfl, .complete hsecret' hcommit' hsent' ((h.served_iff hm).mpr hlen)
            (hfrost.signingShare_tryFrom _ _ hkey)
            (hfrost.verifyingKey_fromCommitment _ _ _ hpublic)⟩

theorem Polled.honest {action : Option (DkgAction frost)} {d' : Dkg frost}
    (hpoll : Polled c m d action d') (h : c.Honest m d) : c.Honest m d' := by
  cases hpoll with
  | commit hsecret =>
      exact { h with
        secret := fun p hp => by
          cases hp
          rfl
        sent := fun hsent => ⟨Option.some_ne_none _, (h.sent hsent).2⟩ }
  | uncommitted => exact h
  | send hsecret hcommit => exact { h with sent := fun _ => ⟨hsecret, hcommit⟩ }
  | unserved => exact h
  | complete => exact h

end Ceremony

end Keygen

end Timechain
