import Mathlib.Algebra.Field.ZMod
import Timechain.Run
import Timechain.TssDkg

/-!
# A shard generating its key

The instances of the members and the messages of the second round between
them. The group commitment reaches each instance through the chain, at any
time and as often as it likes; messages in flight are delivered in any
order, each once; polls come in between (`Net.step`).

What an instance holds is what honest members send (`Net.Sound`), so a poll
never fails and an instance that completes has the value of one polynomial
at its identifier. `threshold` of these values determine the polynomial,
and its constant coefficient is the key.
-/

namespace Timechain

namespace Keygen

open Polynomial Sharing

variable {K G : Type} [Field K] [AddCommGroup G] [Module K G] [DecidableEq K]

structure Wire (K : Type) [Zero K] where
  src : Identifier K
  dst : Identifier K
  msg : DkgMessage K

structure Net (frost : DkgFrost K G) where
  dkg : Identifier K → Dkg frost
  flight : List (Wire K)
  /-- History: the actions the instances returned. -/
  actions : List (Identifier K × DkgAction frost)

inductive Input (K : Type) [Zero K] where
  | poll (m : Identifier K) (order : Identifier K → Nat)
  | onCommit (m : Identifier K)
  /-- Deliver the message at position `k`. -/
  | deliver (k : Nat)

variable {frost : DkgFrost K G}

/-- The messages an action asks for. -/
def DkgAction.wires (m : Identifier K) : DkgAction frost → List (Wire K)
  | .send msgs => msgs.map fun e => ⟨m, e.1, e.2⟩
  | _ => []

namespace Net

def start (c : Ceremony frost) : Net frost := ⟨fun m => .new m c.members c.threshold, [], []⟩

def set (s : Net frost) (m : Identifier K) (d : Dkg frost) : Net frost :=
  { s with dkg := Function.update s.dkg m d }

/-- An instance's answer to a poll. -/
def answer (s : Net frost) (m : Identifier K) (d : Dkg frost) :
    Option (DkgAction frost) → Net frost
  | none => s.set m d
  | some action =>
      { s.set m d with
        flight := s.flight ++ action.wires m
        actions := s.actions ++ [(m, action)] }

def step (c : Ceremony frost) (s : Net frost) : Input K → Option (Net frost)
  | .poll m order =>
      if m ∈ c.members then
        match (s.dkg m).nextAction c.part1 order with
        | .error _ => none
        | .ok (action, d) => some (s.answer m d action)
      else none
  | .onCommit m => some (s.set m ((s.dkg m).onCommit c.groupCommitment))
  | .deliver k =>
      match s.flight[k]? with
      | none => none
      | some w =>
          some { s.set w.dst ((s.dkg w.dst).onMessage w.src w.msg) with
            flight := s.flight.eraseIdx k }

end Net

/-- A run of the members, under any schedule. -/
abbrev NetRun (c : Ceremony frost) : List (Input K) → Net frost → Prop :=
  Run (Net.step c) (fun _ _ => True) (Net.start c)

namespace Net

variable {c : Ceremony frost} {s : Net frost} {m : Identifier K} {d : Dkg frost}

theorem set_dkg (s : Net frost) (m : Identifier K) (d : Dkg frost) (i : Identifier K) :
    (s.set m d).dkg i = if i = m then d else s.dkg i := Function.update_apply ..

@[simp] theorem answer_dkg (s : Net frost) (m : Identifier K) (d : Dkg frost)
    (action : Option (DkgAction frost)) : (s.answer m d action).dkg = (s.set m d).dkg := by
  cases action <;> rfl

theorem step_poll {order : Identifier K → Nat} {s' : Net frost}
    (h : step c s (.poll m order) = some s') :
    m ∈ c.members ∧ ∃ action d, (s.dkg m).nextAction c.part1 order = .ok (action, d) ∧
      s' = s.answer m d action := by
  rw [step] at h
  split at h
  · next hm =>
    split at h
    · cases h
    · next action d hact =>
      cases h
      exact ⟨hm, action, d, hact, rfl⟩
  · cases h

theorem step_deliver {k : Nat} {s' : Net frost} (h : step c s (.deliver k) = some s') :
    ∃ w, s.flight[k]? = some w ∧
      s' = { s.set w.dst ((s.dkg w.dst).onMessage w.src w.msg) with
        flight := s.flight.eraseIdx k } := by
  rw [step] at h
  split at h
  · cases h
  · next w hw =>
    cases h
    exact ⟨w, hw, rfl⟩

/-! ### What the members hold -/

structure Sound (c : Ceremony frost) (s : Net frost) : Prop where
  honest : ∀ m, c.Honest m (s.dkg m)
  flight : ∀ w ∈ s.flight, w.src ∈ c.members ∧ w.src ≠ w.dst ∧
    w.msg.signingShare = c.share w.src w.dst
  actions : ∀ e ∈ s.actions, e.1 ∈ c.members ∧
    ∀ keyPackage publicKeyPackage commitment,
      e.2 = .complete keyPackage publicKeyPackage commitment →
      frost.signingShare keyPackage = c.polynomial.eval e.1.val

theorem Sound.start (c : Ceremony frost) : Sound c (start c) where
  honest := .new
  flight _ h := by cases h
  actions _ h := by cases h

theorem Sound.set (h : Sound c s) (hd : c.Honest m d) : Sound c (s.set m d) where
  honest := (Function.forall_update_iff ..).mpr ⟨hd, fun i _ => h.honest i⟩
  flight := h.flight
  actions := h.actions

/-- An action of an honest instance is added. -/
theorem Sound.act (h : Sound c s) (hm : m ∈ c.members) {action : DkgAction frost} {d d' : Dkg frost}
    (hpoll : c.Polled m d (some action) d') :
    Sound c { s with
      flight := s.flight ++ action.wires m
      actions := s.actions ++ [(m, action)] } where
  honest := h.honest
  flight w hw := by
    rcases List.mem_append.mp hw with hw | hw
    · exact h.flight w hw
    · cases hpoll with
      | commit => cases hw
      | send =>
          obtain ⟨e, he, rfl⟩ := List.mem_map.mp hw
          obtain ⟨peer, hpeer, rfl⟩ := List.mem_map.mp he
          have hne : peer ≠ m := of_decide_eq_true (List.mem_filter.mp hpeer).2
          exact ⟨hm, hne.symm, rfl⟩
      | complete => cases hw
  actions e he := by
    rcases List.mem_append.mp he with he | he
    · exact h.actions e he
    · cases List.mem_singleton.mp he
      refine ⟨hm, fun keyPackage publicKeyPackage commitment heq => ?_⟩
      cases heq
      cases hpoll with
      | complete _ _ _ _ hshare => exact hshare

theorem Sound.answer (h : Sound c s) (hm : m ∈ c.members) {action : Option (DkgAction frost)}
    {d : Dkg frost} (hpoll : c.Polled m (s.dkg m) action d) : Sound c (s.answer m d action) := by
  have hset := h.set (hpoll.honest (h.honest m))
  cases action with
  | none => exact hset
  | some action => exact hset.act hm hpoll

theorem Sound.step (hfrost : frost.Lawful) (h : Sound c s) {i : Input K} {s' : Net frost}
    (hstep : step c s i = some s') : Sound c s' := by
  cases i with
  | poll m order =>
      obtain ⟨hm, action, d, hact, rfl⟩ := step_poll hstep
      obtain ⟨action', d', hact', hpoll⟩ := (h.honest m).polled hfrost hm order
      cases hact.symm.trans hact'
      exact h.answer hm hpoll
  | onCommit m =>
      cases hstep
      exact h.set (h.honest m).onCommit
  | deliver k =>
      obtain ⟨w, hw, rfl⟩ := step_deliver hstep
      obtain ⟨hsrc, hne, hmsg⟩ := h.flight w (List.mem_of_getElem? hw)
      have hset := h.set ((h.honest w.dst).onMessage hsrc hne hmsg)
      exact { hset with flight := fun w hw => h.flight w (List.mem_of_mem_eraseIdx hw) }

theorem run_sound (hfrost : frost.Lawful) {is : List (Input K)} (hrun : NetRun c is s) :
    Sound c s :=
  hrun.invariant (P := fun _ s => Sound c s) (.start c) fun _ h _ hstep => h.step hfrost hstep

/-! ### No package is lost -/

/-- The package of `j` for `m` is on its way or has arrived. -/
def Underway (s : Net frost) (j m : Identifier K) : Prop :=
  (∃ w ∈ s.flight, w.src = j ∧ w.dst = m) ∨ (s.dkg m).round2Packages.containsKey j = true

/-- What an instance has sent is underway. -/
def Lossless (c : Ceremony frost) (s : Net frost) : Prop :=
  ∀ j, (s.dkg j).sentRound2Packages = true → ∀ i ∈ c.members, i ≠ j → s.Underway j i

/-- A change of one instance that loses no package. -/
theorem Underway.set {i j : Identifier K} (h : s.Underway j i)
    (hkeeps : (s.dkg m).round2Packages.containsKey j = true →
      d.round2Packages.containsKey j = true) : (s.set m d).Underway j i := by
  refine h.imp_right fun hkey => ?_
  rw [set_dkg]
  split
  · next him =>
    subst him
    exact hkeeps hkey
  · exact hkey

theorem Lossless.set (h : Lossless c s)
    (hsent : d.sentRound2Packages = true → (s.dkg m).sentRound2Packages = true)
    (hkeeps : ∀ j, (s.dkg m).round2Packages.containsKey j = true →
      d.round2Packages.containsKey j = true) : Lossless c (s.set m d) := by
  intro j hj i hi hne
  refine (h j ?_ i hi hne).set (hkeeps j)
  rw [set_dkg] at hj
  split at hj
  · next hjm =>
    subst hjm
    exact hsent hj
  · exact hj

theorem Underway.append {i j : Identifier K} (h : s.Underway j i) (ws : List (Wire K))
    (actions : List (Identifier K × DkgAction frost)) :
    Underway { s with flight := s.flight ++ ws, actions := actions } j i :=
  h.imp_left fun ⟨w, hw, hends⟩ => ⟨w, List.mem_append_left ws hw, hends⟩

theorem Lossless.append (h : Lossless c s) (ws : List (Wire K))
    (actions : List (Identifier K × DkgAction frost)) :
    Lossless c { s with flight := s.flight ++ ws, actions := actions } :=
  fun j hj i hi hne => (h j hj i hi hne).append ws actions

theorem Lossless.answer (h : Lossless c s) {action : Option (DkgAction frost)}
    (hpoll : c.Polled m (s.dkg m) action d) : Lossless c (s.answer m d action) := by
  cases hpoll with
  | commit =>
      have hset := h.set (m := m) (d := { s.dkg m with secretPackage := some ⟨c.coefficients m⟩ })
        id fun _ => id
      exact hset.append _ _
  | uncommitted => exact h.set id fun _ => id
  | send =>
      intro j hj i hi hne
      by_cases hjm : j = m
      · subst hjm
        refine .inl ⟨⟨j, i, ⟨c.share j i⟩⟩, List.mem_append_right _ ?_, rfl, rfl⟩
        refine List.mem_map.mpr ⟨(i, ⟨c.share j i⟩), List.mem_map.mpr ⟨i, ?_, rfl⟩, rfl⟩
        exact List.mem_filter.mpr ⟨hi, decide_eq_true hne⟩
      · rw [answer_dkg, set_dkg, if_neg hjm] at hj
        have hset := (h j hj i hi hne).set (m := m)
          (d := { s.dkg m with sentRound2Packages := true }) id
        exact hset.append _ _
  | unserved => exact h.set id fun _ => id
  | complete => exact (h.set (m := m) id fun _ => id).append _ _

/-- The package that leaves the flight arrives. -/
theorem Lossless.deliver (h : Lossless c s) {k : Nat} {w : Wire K} (hw : s.flight[k]? = some w) :
    Lossless c { s.set w.dst ((s.dkg w.dst).onMessage w.src w.msg) with
      flight := s.flight.eraseIdx k } := by
  have hset : Lossless c (s.set w.dst ((s.dkg w.dst).onMessage w.src w.msg)) := by
    refine h.set id fun j hkey => ?_
    rw [StorageMap.containsKey_iff] at hkey ⊢
    exact StorageMap.get_insert_ne_none.mpr (.inr hkey)
  intro j hj i hi hne
  rcases hset j hj i hi hne with ⟨w', hw', hsrc, hdst⟩ | hkey
  · by_cases heq : w' = w
    · subst heq
      subst hsrc hdst
      refine .inr ?_
      rw [set_dkg, if_pos rfl, StorageMap.containsKey_iff]
      exact StorageMap.get_insert_ne_none.mpr (.inl rfl)
    · obtain ⟨l, hl⟩ := List.mem_iff_getElem?.mp hw'
      have hlk : l ≠ k := by
        rintro rfl
        exact heq (Option.some.inj (hl.symm.trans hw))
      exact .inl ⟨w', List.mem_eraseIdx_iff_getElem?.mpr ⟨l, hlk, hl⟩, hsrc, hdst⟩
  · exact .inr hkey

theorem Lossless.step (hfrost : frost.Lawful) (hsound : Sound c s) (h : Lossless c s) {i : Input K}
    {s' : Net frost} (hstep : step c s i = some s') : Lossless c s' := by
  cases i with
  | poll m order =>
      obtain ⟨hm, action, d, hact, rfl⟩ := step_poll hstep
      obtain ⟨action', d', hact', hpoll⟩ := (hsound.honest m).polled hfrost hm order
      cases hact.symm.trans hact'
      exact h.answer hpoll
  | onCommit m =>
      cases hstep
      exact h.set id fun _ => id
  | deliver k =>
      obtain ⟨w, hw, rfl⟩ := step_deliver hstep
      exact h.deliver hw

theorem run_lossless (hfrost : frost.Lawful) {is : List (Input K)} (hrun : NetRun c is s) :
    Lossless c s :=
  hrun.invariant (P := fun _ s => Lossless c s) (fun _ hj => by cases hj)
    fun hrun h _ hstep => h.step hfrost (run_sound hfrost hrun) hstep

/-- Once all packages are delivered, an instance that knows the group
commitment completes. -/
theorem Lossless.served (h : Lossless c s) (hflight : s.flight = [])
    (hsent : ∀ j ∈ c.members, (s.dkg j).sentRound2Packages = true) {m : Identifier K}
    (hm : m ∈ c.members) : c.Served m (s.dkg m) := by
  intro j hj hne
  rcases h j (hsent j hj) m hm hne.symm with ⟨w, hw, _⟩ | hkey
  · rw [hflight] at hw
    cases hw
  · exact hkey

end Net

/-! ## The key -/

/-- `threshold` completed shares determine the key: the value at zero of the
polynomial through them, and nothing else, is the logarithm of the first
point of the group commitment. -/
theorem Net.Sound.interpolate {c : Ceremony frost} {s : Net frost} (h : s.Sound c)
    (hfrost : frost.Lawful) {S : Finset (Identifier K)} (hcard : S.card = c.threshold)
    {keyPackage : Identifier K → frost.KeyPackage}
    (hS : ∀ m ∈ S, ∃ publicKeyPackage commitment,
      (m, .complete (keyPackage m) publicKeyPackage commitment) ∈ s.actions) (k : K) :
    c.groupCommitment.head? = some (k • frost.generator) ↔
      k = (Lagrange.interpolate S Subtype.val
        fun m => frost.signingShare (keyPackage m)).eval 0 := by
  have hshares : ∀ m ∈ S, c.polynomial.eval m.val = frost.signingShare (keyPackage m) := by
    intro m hm
    obtain ⟨publicKeyPackage, commitment, hmem⟩ := hS m hm
    exact ((h.actions _ hmem).2 _ _ _ rfl).symm
  have hdegree : c.polynomial.degree < S.card := by
    rw [hcard]
    exact c.polynomial_degree_lt
  rw [← Lagrange.eq_interpolate_of_eval_eq _ Subtype.val_injective.injOn hdegree hshares]
  obtain ⟨point, _, hcons⟩ := List.exists_cons_of_ne_nil c.groupCommitment_ne_nil
  have hpoint : c.groupCommitment.head? = some point := by rw [hcons, List.head?_cons]
  have hlog : point = c.polynomial.eval 0 • frost.generator :=
    (horner_zero hpoint).symm.trans (c.horner_groupCommitment 0)
  rw [hpoint, hlog, Option.some_inj, (smul_left_injective K hfrost.generator_ne_zero).eq_iff,
    eq_comm]

/-- Once all packages are delivered, a poll completes. -/
theorem Net.Sound.completes {c : Ceremony frost} {s : Net frost} (h : s.Sound c)
    (hlossless : s.Lossless c) (hfrost : frost.Lawful) (hflight : s.flight = [])
    (hsent : ∀ j ∈ c.members, (s.dkg j).sentRound2Packages = true) {m : Identifier K}
    (hm : m ∈ c.members) (order : Identifier K → Nat) :
    ∃ keyPackage publicKeyPackage, (s.dkg m).nextAction c.part1 order =
      .ok (some (.complete keyPackage publicKeyPackage c.groupCommitment), s.dkg m) := by
  obtain ⟨hsecret, hcommit⟩ := (h.honest m).sent (hsent m hm)
  obtain ⟨action, d, hact, hpoll⟩ := (h.honest m).polled hfrost hm order
  cases hpoll with
  | commit hnone => exact absurd hnone hsecret
  | uncommitted _ hnone => exact absurd hnone hcommit
  | send _ _ hunsent => exact absurd ((hsent m hm).symm.trans hunsent) (by simp)
  | unserved _ _ _ hunserved => exact absurd (hlossless.served hflight hsent hm) hunserved
  | complete => exact ⟨_, _, hact⟩

/-- Key generation among honest members. No poll fails; an instance
completes with a package from every other member and no sooner, with the
value of the sum of all polynomials as its share, and it does complete once
the packages are delivered; and `threshold` shares give the key. -/
theorem honest_keygen (hfrost : frost.Lawful) (c : Ceremony frost) {is : List (Input K)}
    {s : Net frost} (hrun : NetRun c is s) :
    (∀ m ∈ c.members, ∀ order, ∃ action d, (s.dkg m).nextAction c.part1 order = .ok (action, d) ∧
      (∀ error, action ≠ some (.failure error)) ∧
      ∀ keyPackage publicKeyPackage commitment,
        action = some (.complete keyPackage publicKeyPackage commitment) →
        c.Served m (s.dkg m) ∧ frost.signingShare keyPackage = c.polynomial.eval m.val ∧
          commitment = c.groupCommitment) ∧
    (s.flight = [] → (∀ j ∈ c.members, (s.dkg j).sentRound2Packages = true) →
      ∀ m ∈ c.members, ∀ order, ∃ keyPackage publicKeyPackage,
        (s.dkg m).nextAction c.part1 order =
          .ok (some (.complete keyPackage publicKeyPackage c.groupCommitment), s.dkg m)) ∧
    ∀ (S : Finset (Identifier K)) (keyPackage : Identifier K → frost.KeyPackage),
      S.card = c.threshold →
      (∀ m ∈ S, ∃ publicKeyPackage commitment,
        (m, .complete (keyPackage m) publicKeyPackage commitment) ∈ s.actions) →
      ∀ k, c.groupCommitment.head? = some (k • frost.generator) ↔
        k = (Lagrange.interpolate S Subtype.val
          fun m => frost.signingShare (keyPackage m)).eval 0 := by
  have hsound := Net.run_sound hfrost hrun
  refine ⟨fun m hm order => ?_, fun hflight hsent m hm order => ?_,
    fun S keyPackage hcard hS k => hsound.interpolate hfrost hcard hS k⟩
  · obtain ⟨action, d, hact, hpoll⟩ := (hsound.honest m).polled hfrost hm order
    refine ⟨action, d, hact, ?_⟩
    cases hpoll with
    | commit => simp
    | uncommitted => simp
    | send => simp
    | unserved => simp
    | complete _ _ _ hserved hshare =>
        refine ⟨by simp, fun keyPackage publicKeyPackage commitment heq => ?_⟩
        cases heq
        exact ⟨hserved, hshare, rfl⟩
  · exact hsound.completes (Net.run_lossless hfrost hrun) hfrost hflight hsent hm order

instance factPrimeFive : Fact (Nat.Prime 5) := ⟨Nat.prime_five⟩

/-- The group of five elements; a key package is the share, a public one the
key. -/
def exampleFrost : DkgFrost (ZMod 5) (ZMod 5) where
  Error := Unit
  ProofOfKnowledge := Unit
  KeyPackage := ZMod 5
  PublicKeyPackage := ZMod 5
  generator := 2
  fromCoefficients cs id := horner id.val cs
  tryFrom s :=
    if s.signingShare • (2 : ZMod 5) = horner s.identifier.val s.commitment then .ok s.signingShare
    else .error ()
  signingShare := id
  fromCommitment _ commitment :=
    match commitment.head? with
    | none => .error ()
    | some point => .ok point
  verifyingKey := id

theorem exampleFrost_lawful : exampleFrost.Lawful where
  generator_ne_zero := by decide
  fromCoefficients_eq cs id _ := (eval_poly id.val cs).symm
  tryFrom_iff s _ := by
    rw [exampleFrost]
    dsimp only
    split <;> simp_all
  signingShare_tryFrom s keyPackage h := by
    dsimp only [exampleFrost] at h
    split at h
    · exact (Except.ok.inj h).symm
    · cases h
  fromCommitment_ok members commitment h := by
    obtain ⟨point, rest, rfl⟩ := List.exists_cons_of_ne_nil h
    exact ⟨point, rfl⟩
  verifyingKey_fromCommitment members commitment publicKeyPackage h := by
    cases commitment with
    | nil => cases h
    | cons point rest =>
        cases h
        rfl

def exampleCeremony : Ceremony exampleFrost where
  members := [⟨1, by decide⟩, ⟨2, by decide⟩, ⟨3, by decide⟩]
  threshold := 2
  coefficients m := [m.val, 4]
  proofOfKnowledge _ := ()
  nodup := by decide
  pos := Nat.two_pos
  le := by decide
  length_coefficients _ _ := rfl

/-- Everyone commits, learns the group commitment and sends; all packages
are delivered, the last ones first; everyone completes. -/
def exampleSchedule : List (Input (ZMod 5)) :=
  exampleCeremony.members.map (.poll · fun _ => 0) ++
  exampleCeremony.members.map .onCommit ++
  exampleCeremony.members.map (.poll · fun _ => 0) ++
  [.deliver 5, .deliver 4, .deliver 3, .deliver 2, .deliver 1, .deliver 0] ++
  exampleCeremony.members.map (.poll · fun _ => 0)

def exampleNet : Net exampleFrost :=
  Run.endState (Net.step exampleCeremony) (Net.start exampleCeremony) exampleSchedule

theorem exampleNet_run : NetRun exampleCeremony exampleSchedule exampleNet :=
  Run.to_endState (fun _ _ _ => trivial) (by decide +kernel)

/-- The key package an instance completed with. -/
def DkgAction.keyPackage? : DkgAction frost → Option frost.KeyPackage
  | .complete keyPackage _ _ => some keyPackage
  | _ => none

omit [DecidableEq K] in
theorem mem_actions_complete {actions : List (Identifier K × DkgAction frost)} {m : Identifier K}
    {keyPackage : frost.KeyPackage}
    (h : (m, some keyPackage) ∈ actions.map fun e => (e.1, e.2.keyPackage?)) :
    ∃ publicKeyPackage commitment,
      (m, .complete keyPackage publicKeyPackage commitment) ∈ actions := by
  obtain ⟨⟨j, action⟩, hmem, heq⟩ := List.mem_map.mp h
  cases action with
  | complete keyPackage' publicKeyPackage commitment =>
      cases heq
      exact ⟨publicKeyPackage, commitment, hmem⟩
  | commit => cases heq
  | send => cases heq
  | failure => cases heq

def exampleShares : List (Identifier (ZMod 5) × Option (ZMod 5)) :=
  exampleNet.actions.map fun e => (e.1, e.2.keyPackage?)

/-- The first and the last of three members find the key. -/
theorem honest_keygen_three :
    NetRun exampleCeremony exampleSchedule exampleNet ∧
    ∀ k : ZMod 5, exampleCeremony.groupCommitment.head? = some (k • (2 : ZMod 5)) ↔
      k = (Lagrange.interpolate ({⟨1, by decide⟩, ⟨3, by decide⟩} : Finset (Identifier (ZMod 5)))
        Subtype.val fun m => 1 + 2 * m.val).eval 0 := by
  refine ⟨exampleNet_run, ?_⟩
  refine (honest_keygen exampleFrost_lawful exampleCeremony exampleNet_run).2.2
    {⟨1, by decide⟩, ⟨3, by decide⟩} (fun m => 1 + 2 * m.val) rfl fun m hm => ?_
  refine mem_actions_complete ?_
  have hcompleted : ∀ m ∈ ({⟨1, by decide⟩, ⟨3, by decide⟩} : Finset (Identifier (ZMod 5))),
      (m, some (1 + 2 * m.val)) ∈ exampleShares := by decide +kernel
  exact hcompleted m hm

end Keygen

end Timechain
