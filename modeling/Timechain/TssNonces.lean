import Timechain.Run
import Timechain.TssRoast

/-!
# Nonces are used once

Signing twice with one FROST nonce gives the signing share away. The
nonces of a `Roast` are safe whatever its peers send and in whatever
order: they are stored when their commitment goes out, at most one pair
per coordinator, and taken from the store before they are used. A
signature that fails costs its nonces all the same.

The statement is about every sequence of calls, up to the one that
panics (`Trace`).
-/

namespace Timechain

namespace Signing

variable {F : Frost}

inductive RoastCall (F : Frost) where
  | setData (data : List UInt8)
  | onMessage (peer : Identifier) (msg : RoastMessage F)
  | nextAction (nonces : F.SigningNonces)

/-- A `Roast`, the actions it has output so far, and whether the last call
panicked. -/
structure Trace (F : Frost) where
  roast : Roast F
  sent : List (RoastAction F)
  panicked : Bool

namespace Trace

def start (r : Roast F) : Trace F := ⟨r, [], false⟩

def step (t : Trace F) (call : RoastCall F) : Option (Trace F) :=
  if t.panicked then none
  else
    match call with
    | .setData data => some { t with roast := t.roast.setData data }
    | .onMessage peer msg => some { t with roast := t.roast.onMessage peer msg }
    | .nextAction nonces =>
        match t.roast.nextAction nonces with
        | .ok (action, r) => some { t with roast := r, sent := t.sent ++ action.toList }
        | .error r => some { t with roast := r, panicked := true }

end Trace

/-- The commitment an action carries to coordinator `c`. -/
def RoastAction.commitmentFor (c : Identifier) : RoastAction F → Option F.SigningCommitments
  | .send peer (.commit commitment) => if peer = c then some commitment else none
  | .send peer (.signature response) => if peer = c then some response.commitment else none
  | _ => none

/-- The last commitment output for coordinator `c`. -/
def lastCommitment (c : Identifier) (sent : List (RoastAction F)) : Option F.SigningCommitments :=
  (sent.filterMap (·.commitmentFor c)).getLast?

theorem lastCommitment_append_none {c : Identifier} {sent actions : List (RoastAction F)}
    (h : ∀ a ∈ actions, a.commitmentFor c = none) :
    lastCommitment c (sent ++ actions) = lastCommitment c sent := by
  rw [lastCommitment, List.filterMap_append, List.filterMap_eq_nil_iff.mpr h, List.append_nil,
    lastCommitment]

theorem lastCommitment_append_some {c : Identifier} {sent : List (RoastAction F)}
    {a : RoastAction F} {commitment : F.SigningCommitments}
    (h : a.commitmentFor c = some commitment) :
    lastCommitment c (sent ++ [a]) = some commitment := by
  rw [lastCommitment, List.filterMap_append, List.filterMap_cons_some h, List.filterMap_nil,
    List.getLast?_concat]

/-! ## The store of nonces -/

namespace RoastSigner

/-- Stored nonces are drawn, unused and stored for one coordinator. -/
structure Unspent (s : RoastSigner F) : Prop where
  fresh : ∀ {c nonces}, s.coordinators.get c = some nonces →
    nonces ∈ s.drawn ∧ nonces ∉ s.signed.map Prod.snd
  apart : ∀ {c c' nonces}, s.coordinators.get c = some nonces →
    s.coordinators.get c' = some nonces → c = c'
  once : (s.signed.map Prod.snd).Nodup
  drawn : ∀ nonces ∈ s.signed.map Prod.snd, nonces ∈ s.drawn

theorem unspent_new (keyPackage : F.KeyPackage) : (new keyPackage).Unspent where
  fresh h := by cases h
  apart h := by cases h
  once := List.nodup_nil
  drawn _ h := by cases h

theorem Unspent.spend {s : RoastSigner F} {c : Identifier} {stored : F.SigningNonces}
    (h : s.Unspent) (hstored : s.coordinators.get c = some stored) : (s.spend c stored).Unspent := by
  have hkept : ∀ {c' nonces}, (s.spend c stored).coordinators.get c' = some nonces →
      c' ≠ c ∧ s.coordinators.get c' = some nonces := by
    intro c' nonces hget
    rw [RoastSigner.spend, StorageMap.get_remove] at hget
    split at hget
    · cases hget
    · next hne => exact ⟨hne, hget⟩
  have hsigned : (s.spend c stored).signed.map Prod.snd = s.signed.map Prod.snd ++ [stored] :=
    List.map_append
  refine ⟨?_, ?_, ?_, ?_⟩
  · intro c' nonces hget
    obtain ⟨hne, hold⟩ := hkept hget
    obtain ⟨hdrawn, hunused⟩ := h.fresh hold
    refine ⟨hdrawn, ?_⟩
    rw [hsigned, List.mem_append, List.mem_singleton, not_or]
    refine ⟨hunused, ?_⟩
    rintro rfl
    exact hne (h.apart hold hstored)
  · intro c₁ c₂ nonces h₁ h₂
    exact h.apart (hkept h₁).2 (hkept h₂).2
  · rw [hsigned, ← List.concat_eq_append]
    exact h.once.concat (h.fresh hstored).2
  · intro nonces hmem
    rw [hsigned, List.mem_append, List.mem_singleton] at hmem
    rcases hmem with hmem | rfl
    · exact h.drawn nonces hmem
    · exact (h.fresh hstored).1

theorem Unspent.commit {s : RoastSigner F} {nonces : F.SigningNonces} (h : s.Unspent)
    (hnew : nonces ∉ s.drawn) (c : Identifier) : (s.commit nonces c).2.Unspent := by
  have hget : ∀ {c' nonces'}, (s.commit nonces c).2.coordinators.get c' = some nonces' →
      (c' = c ∧ nonces' = nonces) ∨ (c' ≠ c ∧ s.coordinators.get c' = some nonces') := by
    intro c' nonces' hget
    rw [RoastSigner.commit, StorageMap.get_insert] at hget
    split at hget
    · next heq =>
      cases hget
      exact .inl ⟨heq, rfl⟩
    · next hne => exact .inr ⟨hne, hget⟩
  -- what was stored or used before is drawn, so it is not the new pair
  have hne : ∀ {c'}, s.coordinators.get c' ≠ some nonces :=
    fun hold => hnew (h.fresh hold).1
  refine ⟨?_, ?_, h.once, ?_⟩
  · intro c' nonces' hc'
    rcases hget hc' with ⟨rfl, rfl⟩ | ⟨-, hold⟩
    · exact ⟨List.mem_append_right _ (List.mem_singleton_self _),
        fun hused => hnew (h.drawn _ hused)⟩
    · exact ⟨List.mem_append_left _ (h.fresh hold).1, (h.fresh hold).2⟩
  · intro c₁ c₂ nonces' h₁ h₂
    rcases hget h₁ with ⟨rfl, rfl⟩ | ⟨-, hold₁⟩
    · rcases hget h₂ with ⟨rfl, -⟩ | ⟨-, hold₂⟩
      · rfl
      · exact absurd hold₂ hne
    · rcases hget h₂ with ⟨-, rfl⟩ | ⟨-, hold₂⟩
      · exact absurd hold₁ hne
      · exact h.apart hold₁ hold₂
  · intro nonces' hused
    exact List.mem_append_left _ (h.drawn _ hused)

theorem Unspent.requests {s : RoastSigner F} (h : s.Unspent)
    (requests : List (Identifier × RoastSignerRequest F)) :
    { s with requests := requests }.Unspent :=
  ⟨h.fresh, h.apart, h.once, h.drawn⟩

/-- What taking requests off the queue does to nonces. -/
structure Drains (s : RoastSigner F) (spent : List (Identifier × F.SigningNonces))
    (s' : RoastSigner F) : Prop where
  drawn : s'.drawn = s.drawn
  signed : s'.signed = s.signed ++ spent
  held : ∀ e ∈ spent, s.coordinators.get e.1 = some e.2
  left : ∀ {c nonces}, s'.coordinators.get c = some nonces → s.coordinators.get c = some nonces
  unspent : s.Unspent → s'.Unspent

theorem Spends.drains {s s' : RoastSigner F} {spent : List (Identifier × F.SigningNonces)}
    (h : Spends s spent s') : s.Drains spent s' := by
  induction h with
  | done s => exact ⟨rfl, (List.append_nil _).symm, fun _ he => absurd he List.not_mem_nil, id, id⟩
  | @next s s' c request requests stored spent hreq hget hspends ih =>
      have hleft : ∀ {c' nonces}, (s.coordinators.remove c).get c' = some nonces →
          s.coordinators.get c' = some nonces := by
        intro c' nonces hget'
        rw [StorageMap.get_remove] at hget'
        split at hget'
        · cases hget'
        · exact hget'
      refine ⟨ih.drawn, ?_, ?_, fun hs' => hleft (ih.left hs'), fun hs => ih.unspent ?_⟩
      · rw [ih.signed, spend, List.append_assoc, List.singleton_append]
      · intro e he
        rcases List.mem_cons.mp he with rfl | he
        · exact hget
        · exact hleft (ih.held e he)
      · exact (hs.requests requests).spend hget

theorem Drains.requests {s s' : RoastSigner F} {spent : List (Identifier × F.SigningNonces)}
    (h : s.Drains spent s') (requests : List (Identifier × RoastSignerRequest F)) :
    s.Drains spent { s' with requests := requests } :=
  ⟨h.drawn, h.signed, h.held, h.left, fun hs => (h.unspent hs).requests requests⟩

end RoastSigner

/-! ## One call -/

namespace Trace

/-- What a call does to the nonces: the pairs it uses were in the store
before it, and those it stores are sent. -/
structure Uses (t t' : Trace F) (spent : List (Identifier × F.SigningNonces)) : Prop where
  signed : t'.roast.signer.signed = t.roast.signer.signed ++ spent
  held : ∀ e ∈ spent, t.roast.signer.coordinators.get e.1 = some e.2
  drawn : t.roast.signer.drawn <+: t'.roast.signer.drawn
  unspent : t'.roast.signer.drawn.Nodup → t.roast.signer.Unspent → t'.roast.signer.Unspent
  sent : ∀ {c nonces}, t'.roast.signer.coordinators.get c = some nonces →
    (t.roast.signer.coordinators.get c = some nonces ∧
        lastCommitment c t'.sent = lastCommitment c t.sent) ∨
      lastCommitment c t'.sent = some (F.commitment nonces)

/-- Calls that leave the nonces alone. -/
theorem Uses.of_eq {t t' : Trace F}
    (hcoord : t'.roast.signer.coordinators = t.roast.signer.coordinators)
    (hdrawn : t'.roast.signer.drawn = t.roast.signer.drawn)
    (hsigned : t'.roast.signer.signed = t.roast.signer.signed)
    (hsent : ∀ c, lastCommitment c t'.sent = lastCommitment c t.sent) : t.Uses t' [] where
  signed := hsigned.trans (List.append_nil _).symm
  held _ he := absurd he List.not_mem_nil
  drawn := hdrawn ▸ List.prefix_rfl
  unspent _ h := by
    refine ⟨?_, ?_, ?_, ?_⟩
    · rw [hcoord, hdrawn, hsigned]
      exact h.fresh
    · rw [hcoord]
      exact h.apart
    · rw [hsigned]
      exact h.once
    · rw [hdrawn, hsigned]
      exact h.drawn
  sent hget := .inl ⟨hcoord ▸ hget, hsent _⟩

/-- Requests are taken off the queue. -/
theorem Uses.of_drains {t t' : Trace F} {spent : List (Identifier × F.SigningNonces)}
    (h : t.roast.signer.Drains spent t'.roast.signer)
    (hsent : ∀ c, lastCommitment c t'.sent = lastCommitment c t.sent) : t.Uses t' spent where
  signed := h.signed
  held := h.held
  drawn := h.drawn ▸ List.prefix_rfl
  unspent _ := h.unspent
  sent hget := .inl ⟨h.left hget, hsent _⟩

/-- New nonces for `c` are drawn and stored, and the commitment to them is
sent. -/
theorem Uses.of_commit {t t' : Trace F} {spent : List (Identifier × F.SigningNonces)}
    {s : RoastSigner F} {nonces : F.SigningNonces} {c : Identifier} {a : RoastAction F}
    (h : t.roast.signer.Drains spent s) (hs : t'.roast.signer = (s.commit nonces c).2)
    (hsent : t'.sent = t.sent ++ [a]) (ha : a.commitmentFor c = some (F.commitment nonces))
    (hother : ∀ c' ≠ c, a.commitmentFor c' = none) : t.Uses t' spent := by
  have hdrawn : t'.roast.signer.drawn = t.roast.signer.drawn ++ [nonces] := by
    rw [hs, ← h.drawn]
    rfl
  refine ⟨hs ▸ h.signed, h.held, ⟨_, hdrawn.symm⟩, ?_, ?_⟩
  · intro hnodup hunspent
    rw [hdrawn, ← List.concat_eq_append, List.nodup_concat] at hnodup
    rw [hs]
    exact (h.unspent hunspent).commit (h.drawn ▸ hnodup.1) c
  · intro c' nonces' hget
    rw [hs, RoastSigner.commit, StorageMap.get_insert] at hget
    rw [hsent]
    split at hget
    · next heq =>
      subst heq
      cases hget
      exact .inr (lastCommitment_append_some ha)
    · next hne =>
      refine .inl ⟨h.left hget, lastCommitment_append_none ?_⟩
      intro a' ha'
      rw [List.mem_singleton.mp ha']
      exact hother c' hne

/-- A call outputs at most one action, and one without a commitment says
nothing to a coordinator. -/
theorem lastCommitment_action {c : Identifier} {sent : List (RoastAction F)} {a : RoastAction F}
    (h : a.commitmentFor c = none) :
    lastCommitment c (sent ++ (some a).toList) = lastCommitment c sent :=
  lastCommitment_append_none fun _ ha => List.mem_singleton.mp ha ▸ h

theorem step_uses {t t' : Trace F} {call : RoastCall F} (h : t.step call = some t') :
    ∃ spent, t.Uses t' spent := by
  unfold step at h
  split at h
  · cases h
  · cases call with
    | setData data =>
        cases h
        exact ⟨[], .of_eq rfl rfl rfl fun _ => rfl⟩
    | onMessage peer msg =>
        cases h
        refine ⟨[], .of_eq ?_ ?_ ?_ fun _ => rfl⟩ <;> cases msg <;> rfl
    | nextAction nonces =>
        dsimp only at h
        split at h
        · next action r hact =>
          cases h
          cases Roast.nextAction_ok hact with
          | complete => exact ⟨[], .of_eq rfl rfl rfl fun _ => lastCommitment_action rfl⟩
          | start => exact ⟨[], .of_eq rfl rfl rfl fun _ => lastCommitment_action rfl⟩
          | commit hwaits hc =>
              refine ⟨[], .of_commit (RoastSigner.Spends.done _).drains rfl rfl (if_pos rfl) ?_⟩
              intro c' hne
              exact if_neg hne.symm
          | @reply o c response signer hwaits hnil hm =>
              have hans := hm ▸ t.roast.signer.message_answers nonces
              cases hans with
              | response hspends _ hc =>
                  refine ⟨_, .of_commit hspends.drains rfl rfl ?_ ?_⟩
                  · exact (if_pos rfl).trans (congrArg some hc)
                  · intro c' hne
                    exact if_neg hne.symm
          | idle hwaits hnil hm =>
              have hans := hm ▸ t.roast.signer.message_answers nonces
              cases hans with
              | silent hspends =>
                  refine ⟨_, .of_drains hspends.drains fun c => ?_⟩
                  exact lastCommitment_append_none fun _ ha => absurd ha List.not_mem_nil
        · next r hact =>
          cases h
          cases Roast.nextAction_error hact with
          | message hwaits hnil hm =>
              have hans := hm ▸ t.roast.signer.message_answers nonces
              cases hans with
              | panic hspends hq hget =>
                  exact ⟨_, .of_drains (hspends.drains.requests _) fun _ => rfl⟩

end Trace

/-! ## Runs -/

/-- The nonces after any sequence of calls. -/
structure Trace.Safe (t : Trace F) : Prop where
  unspent : t.roast.signer.drawn.Nodup → t.roast.signer.Unspent
  stored : ∀ {c nonces}, t.roast.signer.coordinators.get c = some nonces →
    lastCommitment c t.sent = some (F.commitment nonces)

theorem Trace.Safe.step {t t' : Trace F} {spent : List (Identifier × F.SigningNonces)}
    (h : t.Safe) (hstep : t.Uses t' spent) : t'.Safe where
  unspent hnodup := hstep.unspent hnodup (h.unspent (hnodup.sublist hstep.drawn.sublist))
  stored hget := by
    rcases hstep.sent hget with ⟨hold, hlast⟩ | hlast
    · exact hlast.trans (h.stored hold)
    · exact hlast

theorem Trace.run_safe {id threshold : Nat} {keyPackage : F.KeyPackage}
    {publicKeyPackage : F.PublicKeyPackage} {coordinators : List Identifier}
    {calls : List (RoastCall F)} {t : Trace F}
    (hrun : Run Trace.step (fun _ _ => True)
      (.start (.new id threshold keyPackage publicKeyPackage coordinators)) calls t) : t.Safe := by
  refine hrun.invariant (P := fun _ t => t.Safe) ?_ ?_
  · exact ⟨fun _ => RoastSigner.unspent_new keyPackage, fun hget => by cases hget⟩
  · intro calls t call t' _ hsafe _ hstep
    obtain ⟨spent, huses⟩ := Trace.step_uses hstep
    exact hsafe.step huses

/-- **Nonces are used once.** After any calls, if no two of the nonces drawn
are the same, no two signatures used the same. And every signature of a
further call, also of one that panics, uses the nonces of the last
commitment that was output for the coordinator it answers. -/
theorem nonces_used_once {id threshold : Nat} {keyPackage : F.KeyPackage}
    {publicKeyPackage : F.PublicKeyPackage} {coordinators : List Identifier}
    {calls : List (RoastCall F)} {t : Trace F}
    (hrun : Run Trace.step (fun _ _ => True)
      (.start (.new id threshold keyPackage publicKeyPackage coordinators)) calls t)
    (hfresh : t.roast.signer.drawn.Nodup) :
    (t.roast.signer.signed.map Prod.snd).Nodup ∧
      (∀ nonces ∈ t.roast.signer.signed.map Prod.snd, nonces ∈ t.roast.signer.drawn) ∧
      ∀ call t', t.step call = some t' →
        ∃ spent, t'.roast.signer.signed = t.roast.signer.signed ++ spent ∧
          ∀ e ∈ spent, lastCommitment e.1 t.sent = some (F.commitment e.2) := by
  have hsafe := Trace.run_safe hrun
  have hunspent := hsafe.unspent hfresh
  refine ⟨hunspent.once, hunspent.drawn, ?_⟩
  intro call t' hstep
  obtain ⟨spent, huses⟩ := Trace.step_uses hstep
  refine ⟨spent, huses.signed, ?_⟩
  intro e he
  exact hsafe.stored (huses.held e he)

/-- Member 2 of a shard with coordinator 1. -/
def toySigner : Trace toyFrost := .start (.new 2 1 2 () [1])

/-- It commits, gets a request and answers it. -/
def replyCalls : List (RoastCall toyFrost) :=
  [.setData [7], .nextAction 5, .onMessage 1 (.sign ⟨0, (∅ : StorageMap Nat Nat).insert 2 5⟩),
    .nextAction 6]

theorem replyCalls_run : Run Trace.step (fun _ _ => True) toySigner replyCalls
    (Run.endState Trace.step toySigner replyCalls) :=
  Run.to_endState (fun _ _ _ => trivial) (by decide)

theorem nonces_used_once_reply :
    (Run.endState Trace.step toySigner replyCalls).roast.signer.signed = [(1, 5)] ∧
      ((Run.endState Trace.step toySigner replyCalls).roast.signer.signed.map Prod.snd).Nodup :=
  ⟨by decide, (nonces_used_once replyCalls_run (by decide)).1⟩

end Signing

end Timechain
