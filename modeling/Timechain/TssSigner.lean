import Timechain.Run
import Timechain.TssState

/-!
# Signers that do not panic

`RoastSigner::message` expects to have nonces for the coordinator of
every request it takes off the queue. It has them if requests come from
coordinators, and if a coordinator waits for the answer to one request
before it sends the next. An honest coordinator does both; `on_message`
checks neither. A request of a member that is no coordinator, or a second
one after a signature failed, stops the process
(`stray_request_panics`).

A member's own requests are never the problem. Its coordinator asks its
own signer only while its commitment is in the pool, and then the signer
has the nonces and no request of it in the queue (`Ready.own`).
-/

namespace Timechain

namespace Signing

variable {F : Frost}

/-! ## The queue of requests -/

namespace RoastSigner

/-- The coordinators with a request in the queue. -/
def asking (s : RoastSigner F) : List Identifier := s.requests.map Prod.fst

theorem commit_stored (s : RoastSigner F) (nonces : F.SigningNonces) (c : Identifier) :
    (s.commit nonces c).2.coordinators.get c ≠ none := by
  rw [commit, StorageMap.get_insert_self]
  exact Option.some_ne_none _

theorem commit_keeps {s : RoastSigner F} {nonces : F.SigningNonces} {c c' : Identifier}
    (h : s.coordinators.get c' ≠ none) : (s.commit nonces c).2.coordinators.get c' ≠ none := by
  rw [commit, StorageMap.get_insert]
  split
  · exact Option.some_ne_none _
  · exact h

/-- Each coordinator has at most one request in the queue, and nonces are
stored for it. -/
structure Supplied (s : RoastSigner F) : Prop where
  single : s.asking.Nodup
  stored : ∀ c ∈ s.asking, s.coordinators.get c ≠ none

/-- What is left after some requests were taken off the queue. -/
structure Left (s : RoastSigner F) (spent : List (Identifier × F.SigningNonces))
    (s' : RoastSigner F) : Prop where
  supplied : s'.Supplied
  asking : ∀ c ∈ s'.asking, c ∈ s.asking
  kept : ∀ c, c ∉ s.asking → s'.coordinators.get c = s.coordinators.get c
  spent : ∀ c ∈ spent.map Prod.fst, c ∈ s.asking ∧ c ∉ s'.asking

theorem Spends.left {s s' : RoastSigner F} {spent : List (Identifier × F.SigningNonces)}
    (h : Spends s spent s') (hs : s.Supplied) : s.Left spent s' := by
  induction h with
  | done s => exact ⟨hs, fun _ hc => hc, fun _ _ => rfl, fun _ hc => absurd hc List.not_mem_nil⟩
  | @next s s' c request requests stored spent hreq hget hspends ih =>
      have hasking : s.asking = c :: requests.map Prod.fst := by
        rw [RoastSigner.asking, hreq, List.map_cons]
      obtain ⟨hc, hrest⟩ := List.nodup_cons.mp (hasking ▸ hs.single)
      have hleft := ih ⟨hrest, ?_⟩
      · refine ⟨hleft.supplied, ?_, ?_, ?_⟩
        · intro c' hc'
          rw [hasking]
          exact List.mem_cons_of_mem _ (hleft.asking c' hc')
        · intro c' hc'
          rw [hasking, List.mem_cons, not_or] at hc'
          exact (hleft.kept c' hc'.2).trans (StorageMap.get_remove_of_ne _ hc'.1)
        · intro c' hc'
          rw [hasking]
          rcases List.mem_cons.mp hc' with rfl | hc'
          · exact ⟨List.mem_cons_self, fun hmem => hc (hleft.asking _ hmem)⟩
          · exact ⟨List.mem_cons_of_mem _ (hleft.spent c' hc').1, (hleft.spent c' hc').2⟩
      · -- the nonces of `c` are gone, but so is its only request
        intro c' hc'
        have hne : c' ≠ c := fun heq => hc (heq ▸ hc')
        refine ne_of_eq_of_ne (StorageMap.get_remove_of_ne _ hne) (hs.stored c' ?_)
        rw [hasking]
        exact List.mem_cons_of_mem _ hc'

theorem Supplied.message_ok {s s' : RoastSigner F} {nonces : F.SigningNonces} (hs : s.Supplied) :
    s.message nonces ≠ .error s' := by
  intro herror
  have hans := herror ▸ s.message_answers nonces
  cases hans with
  | @panic spent s₁ c request requests hspends hreq hnone =>
      refine (hspends.left hs).supplied.stored c ?_ hnone
      rw [asking, hreq]
      exact List.mem_cons_self

end RoastSigner

/-! ## One session -/

namespace Roast

/-- A session that will not panic. -/
structure Ready (me : Identifier) (r : Roast F) : Prop where
  nodup : r.coordinators.Nodup
  single : r.signer.asking.Nodup
  known : ∀ c ∈ r.signer.asking, c ∈ r.coordinators ∨ r.signer.coordinators.get c ≠ none
  /-- The member is asked by itself only after its commitment. -/
  late : me ∈ r.signer.asking → me ∉ r.coordinators
  own : ∀ k, r.coordinator = some k → k.commitments.get me ≠ none →
    me ∉ r.coordinators ∧ me ∉ r.signer.asking ∧ r.signer.coordinators.get me ≠ none

theorem ready_new {me id : Identifier} {threshold : Nat} {keyPackage : F.KeyPackage}
    {publicKeyPackage : F.PublicKeyPackage} {coordinators : List Identifier}
    (h : coordinators.Nodup) :
    Ready me (.new id threshold keyPackage publicKeyPackage coordinators : Roast F) where
  nodup := h
  single := List.nodup_nil
  known _ hc := absurd hc List.not_mem_nil
  late hc := absurd hc List.not_mem_nil
  own k hk hpool := by
    dsimp only [Roast.new] at hk
    split at hk
    · cases hk
      exact absurd rfl hpool
    · cases hk

/-- `r'` differs from `r` at most in what a coordinator keeps about others. -/
theorem Ready.of_pool {me : Identifier} {r r' : Roast F} (h : r.Ready me)
    (hcoord : r'.coordinators = r.coordinators) (hsigner : r'.signer.asking = r.signer.asking)
    (hstored : r'.signer.coordinators = r.signer.coordinators)
    (hpool : ∀ k', r'.coordinator = some k' → k'.commitments.get me ≠ none →
      ∃ k, r.coordinator = some k ∧ k.commitments.get me ≠ none) : r'.Ready me where
  nodup := hcoord ▸ h.nodup
  single := hsigner ▸ h.single
  known := by
    rw [hcoord, hsigner, hstored]
    exact h.known
  late := by
    rw [hcoord, hsigner]
    exact h.late
  own k' hk' hself := by
    obtain ⟨k, hk, hpooled⟩ := hpool k' hk' hself
    rw [hcoord, hsigner, hstored]
    exact h.own k hk hpooled

theorem Ready.setData {me : Identifier} {r : Roast F} (h : r.Ready me) (data : List UInt8) :
    (r.setData data).Ready me :=
  h.of_pool rfl rfl rfl fun k hk hself => ⟨k, hk, hself⟩

/-- A request that can be answered is queued. -/
theorem Ready.sign {me : Identifier} {r : Roast F} (h : r.Ready me) {peer : Identifier}
    {request : RoastSignerRequest F} (hnew : peer ∉ r.signer.asking)
    (hknown : peer ∈ r.coordinators ∨ r.signer.coordinators.get peer ≠ none)
    (hself : peer = me → me ∉ r.coordinators ∧
      ∀ k, r.coordinator = some k → k.commitments.get me = none) :
    (r.onMessage peer (.sign request)).Ready me := by
  have hasking : (r.onMessage peer (.sign request)).signer.asking = r.signer.asking ++ [peer] :=
    List.map_append
  refine ⟨h.nodup, ?_, ?_, ?_, ?_⟩
  · rw [hasking, ← List.concat_eq_append]
    exact h.single.concat hnew
  · intro c hc
    rw [hasking, List.mem_append, List.mem_singleton] at hc
    rcases hc with hc | rfl
    · exact h.known c hc
    · exact hknown
  · intro hc
    rw [hasking, List.mem_append, List.mem_singleton] at hc
    rcases hc with hc | rfl
    · exact h.late hc
    · exact (hself rfl).1
  · intro k hk hpool
    obtain ⟨hcoord, hask, hstored⟩ := h.own k hk hpool
    refine ⟨hcoord, ?_, hstored⟩
    rw [hasking, List.mem_append, List.mem_singleton, not_or]
    refine ⟨hask, ?_⟩
    rintro rfl
    exact hpool ((hself rfl).2 k hk)

theorem pool_onCommit {k : RoastCoordinator F} {peer me : Identifier}
    {commitment : F.SigningCommitments} (hne : me ≠ peer)
    (h : (k.onCommit peer commitment).commitments.get me ≠ none) :
    k.commitments.get me ≠ none := by
  rw [RoastCoordinator.onCommit] at h
  split at h
  · exact h
  · rwa [StorageMap.get_insert_of_ne _ _ hne] at h

theorem pool_onResponse {k : RoastCoordinator F} {peer me : Identifier}
    {response : RoastSignerResponse F} (hne : me ≠ peer)
    (h : (k.onResponse peer response).commitments.get me ≠ none) :
    k.commitments.get me ≠ none := by
  rw [RoastCoordinator.onResponse] at h
  split at h
  · exact h
  · rwa [StorageMap.get_insert_of_ne _ _ hne] at h

/-- Messages of other members. -/
theorem Ready.onMessage {me : Identifier} {r : Roast F} (h : r.Ready me) {peer : Identifier}
    {msg : RoastMessage F} (hne : peer ≠ me)
    (hsign : ∀ request, msg = .sign request → peer ∉ r.signer.asking ∧
      (peer ∈ r.coordinators ∨ r.signer.coordinators.get peer ≠ none)) :
    (r.onMessage peer msg).Ready me := by
  cases msg with
  | commit commitment =>
      refine h.of_pool rfl rfl rfl fun k' hk' hself => ?_
      obtain ⟨k, hk, rfl⟩ := Option.map_eq_some_iff.mp hk'
      exact ⟨k, hk, pool_onCommit hne.symm hself⟩
  | sign request =>
      obtain ⟨hnew, hknown⟩ := hsign request rfl
      exact h.sign hnew hknown fun heq => absurd heq hne
  | signature response =>
      refine h.of_pool rfl rfl rfl fun k' hk' hself => ?_
      obtain ⟨k, hk, rfl⟩ := Option.map_eq_some_iff.mp hk'
      exact ⟨k, hk, pool_onResponse hne.symm hself⟩

/-- The member's own commitment, or its own response: it has nonces for
itself and nothing to answer. -/
theorem Ready.pooled {me : Identifier} {r r' : Roast F} (h : r.Ready me)
    (hcoord : me ∉ r.coordinators) (hask : me ∉ r.signer.asking)
    (hstored : r.signer.coordinators.get me ≠ none) (hc : r'.coordinators = r.coordinators)
    (hs : r'.signer = r.signer) : r'.Ready me := by
  refine ⟨hc ▸ h.nodup, hs ▸ h.single, ?_, ?_, ?_⟩
  · rw [hc, hs]
    exact h.known
  · rw [hc, hs]
    exact h.late
  · intro _ _ _
    rw [hc, hs]
    exact ⟨hcoord, hask, hstored⟩

/-! ## Polls -/

theorem aggregate_commitments {r : Roast F} {k k' : RoastCoordinator F}
    {o : Option (Bytes 32 × F.Signature)} (h : r.aggregate k = (o, k')) :
    k'.commitments = k.commitments := by
  rw [aggregate] at h
  split at h
  · cases h
    rfl
  · split at h
    · cases h
      rfl
    · next session k₁ hsome =>
      obtain ⟨i, -, -, rfl⟩ := RoastCoordinator.aggregateSignature_eq_some hsome
      cases h
      rfl

theorem Waits.pool {r : Roast F} {o : Option (RoastCoordinator F)} (h : r.Waits o)
    {k' : RoastCoordinator F} (hk' : o = some k') :
    ∃ k, r.coordinator = some k ∧ k'.commitments = k.commitments := by
  cases h with
  | signer _ => cases hk'
  | coordinator hk hagg _ =>
      cases hk'
      exact ⟨_, hk, aggregate_commitments hagg⟩

/-- The signer's half of a call leaves the coordinator's pool alone. -/
theorem Ready.waits {me : Identifier} {r : Roast F} {o : Option (RoastCoordinator F)}
    (h : r.Ready me) (hwaits : r.Waits o) : ({ r with coordinator := o }).Ready me := by
  refine h.of_pool rfl rfl rfl fun k' hk' hself => ?_
  obtain ⟨k, hk, hpool⟩ := hwaits.pool hk'
  exact ⟨k, hk, hpool ▸ hself⟩

theorem Ready.commit {me : Identifier} {r : Roast F} {c : Identifier} (h : r.Ready me)
    (nonces : F.SigningNonces) (hc : r.coordinators.getLast? = some c) :
    ({ r with
      signer := (r.signer.commit nonces c).2
      coordinators := r.coordinators.dropLast }).Ready me := by
  have hlast : r.coordinators = r.coordinators.dropLast ++ [c] :=
    (List.dropLast_append_getLast? c hc).symm
  have hdrop : ∀ {c'}, c' ∉ r.coordinators → c' ∉ r.coordinators.dropLast :=
    fun hc' hmem => hc' (List.mem_of_mem_dropLast hmem)
  refine ⟨h.nodup.sublist (List.dropLast_sublist _), h.single, ?_, fun hs => hdrop (h.late hs), ?_⟩
  · intro c' hc'
    rcases h.known c' hc' with hmem | hs
    · rw [hlast, List.mem_append, List.mem_singleton] at hmem
      rcases hmem with hmem | rfl
      · exact .inl hmem
      · exact .inr (RoastSigner.commit_stored _ _ _)
    · exact .inr (RoastSigner.commit_keeps hs)
  · intro k hk hpool
    obtain ⟨hcoord, hask, hs⟩ := h.own k hk hpool
    exact ⟨hdrop hcoord, hask, RoastSigner.commit_keeps hs⟩

/-- With nobody left to commit to, all requests can be answered. -/
theorem Ready.supplied {me : Identifier} {r : Roast F} (h : r.Ready me)
    (hnil : r.coordinators = []) : r.signer.Supplied where
  single := h.single
  stored c hc := by
    rcases h.known c hc with hmem | hstored
    · rw [hnil] at hmem
      exact absurd hmem List.not_mem_nil
    · exact hstored

/-- Some requests are taken off the queue. -/
theorem Ready.left {me : Identifier} {r : Roast F} (h : r.Ready me) {signer : RoastSigner F}
    {spent : List (Identifier × F.SigningNonces)} (hleft : r.signer.Left spent signer) :
    ({ r with signer := signer }).Ready me := by
  refine ⟨h.nodup, hleft.supplied.single, fun c hc => .inr (hleft.supplied.stored c hc),
    fun hc => h.late (hleft.asking _ hc), ?_⟩
  intro k hk hpool
  obtain ⟨hcoord, hask, hstored⟩ := h.own k hk hpool
  refine ⟨hcoord, fun hc => hask (hleft.asking _ hc), ?_⟩
  change signer.coordinators.get me ≠ none
  rwa [hleft.kept me hask]

/-- New nonces are stored. -/
theorem Ready.store {me : Identifier} {r : Roast F} (h : r.Ready me) (nonces : F.SigningNonces)
    (c : Identifier) : ({ r with signer := (r.signer.commit nonces c).2 }).Ready me := by
  refine ⟨h.nodup, h.single, fun c' hc' => (h.known c' hc').imp id RoastSigner.commit_keeps,
    h.late, ?_⟩
  intro k hk hpool
  obtain ⟨hcoord, hask, hs⟩ := h.own k hk hpool
  exact ⟨hcoord, hask, RoastSigner.commit_keeps hs⟩

theorem toSelf_eq (r : Roast F) (me : Identifier) (peers : List Identifier) (msg : RoastMessage F) :
    r.toSelf me peers msg = if me ∈ peers then r.onMessage me msg else r := by
  have hall : (others me peers).length = peers.length ↔ me ∉ peers := by
    rw [others, List.length_filter_eq_length_iff]
    constructor
    · intro h hmem
      have := h me hmem
      simp at this
    · intro h p hp
      rw [bne_iff_ne]
      rintro rfl
      exact h hp
  rw [toSelf]
  by_cases hmem : me ∈ peers
  · rw [if_neg (fun h => hall.mp h hmem), if_pos hmem]
  · rw [if_pos (hall.mpr hmem), if_neg hmem]

theorem Ready.acts {me : Identifier} {r r' : Roast F} {nonces : F.SigningNonces}
    {action : RoastAction F} {peers : List Identifier} {msg : RoastMessage F} (h : r.Ready me)
    (hacts : r.Acts nonces (some action) r') (hout : action.outgoing = .inl (peers, msg)) :
    (r'.toSelf me peers msg).Ready me := by
  rw [toSelf_eq]
  cases hacts with
  | complete => cases hout
  | @start k k' k'' request hk hagg hstart =>
      obtain ⟨rfl, rfl⟩ := Prod.mk.injEq .. |>.mp (Sum.inl.inj hout)
      have hpool := aggregate_commitments hagg
      have hready : ({ r with coordinator := some k'', started := r.started + 1 }).Ready me := by
        refine h.of_pool rfl rfl rfl fun k₁ hk₁ hme => ⟨k, hk, ?_⟩
        cases hk₁
        rcases hstart.split me with ⟨-, hnone⟩ | ⟨-, heq⟩
        · exact absurd hnone hme
        · rwa [heq, hpool] at hme
      split
      · next hmem =>
        have htaken := StorageMap.mem_map_iter.mp hmem
        rcases hstart.split me with ⟨heq, hnone⟩ | ⟨hnone, -⟩
        · rw [heq, hpool] at htaken
          obtain ⟨hcoord, hask, hstored⟩ := h.own k hk htaken
          refine hready.sign hask (.inr hstored) fun _ => ⟨hcoord, fun k₁ hk₁ => ?_⟩
          cases hk₁
          exact hnone
        · exact absurd hnone htaken
      · exact hready
  | @commit o c hwaits hc =>
      obtain ⟨rfl, rfl⟩ := Prod.mk.injEq .. |>.mp (Sum.inl.inj hout)
      have hready := (h.waits hwaits).commit nonces hc
      split
      · next hmem =>
        obtain rfl := List.mem_singleton.mp hmem
        have hlast : r.coordinators = r.coordinators.dropLast ++ [me] :=
          (List.dropLast_append_getLast? me hc).symm
        have hnodup := h.nodup
        rw [hlast, ← List.concat_eq_append, List.nodup_concat] at hnodup
        refine hready.pooled hnodup.1 (fun hask => ?_) ?_ rfl rfl
        · refine h.late hask ?_
          rw [hlast]
          exact List.mem_append_right _ (List.mem_singleton_self _)
        · exact RoastSigner.commit_stored _ _ _
      · exact hready
  | @reply o c response signer hwaits hnil hm =>
      obtain ⟨rfl, rfl⟩ := Prod.mk.injEq .. |>.mp (Sum.inl.inj hout)
      have hans := hm ▸ r.signer.message_answers nonces
      cases hans with
      | @response spent s' c response hspends hc hcommit =>
          have hleft := hspends.left (h.supplied hnil)
          have hready := ((h.waits hwaits).left hleft).store nonces c
          split
          · next hmem =>
            obtain rfl := List.mem_singleton.mp hmem
            refine hready.pooled ?_ (hleft.spent me hc).2 ?_ rfl rfl
            · rw [show r.coordinators = [] from hnil]
              exact List.not_mem_nil
            · exact RoastSigner.commit_stored _ _ _
          · exact hready

theorem Ready.idle {me : Identifier} {r r' : Roast F} {nonces : F.SigningNonces}
    (h : r.Ready me) (hacts : r.Acts nonces none r') : r'.Ready me := by
  cases hacts with
  | idle hwaits hnil hm =>
      have hans := hm ▸ r.signer.message_answers nonces
      cases hans with
      | silent hspends => exact (h.waits hwaits).left (hspends.left (h.supplied hnil))

theorem Ready.complete {me : Identifier} {r r' : Roast F} {nonces : F.SigningNonces}
    {action : RoastAction F} {hash : Bytes 32} {signature : F.Signature} (h : r.Ready me)
    (hacts : r.Acts nonces (some action) r') (hout : action.outgoing = .inr (hash, signature)) :
    r'.Ready me := by
  cases hacts with
  | complete => exact h.of_pool rfl rfl rfl fun k hk => by cases hk
  | start => cases hout
  | commit => cases hout
  | reply => cases hout

theorem Ready.not_panics {me : Identifier} {r r' : Roast F} {nonces : F.SigningNonces}
    (h : r.Ready me) : ¬ r.Panics nonces r' := by
  rintro ⟨-, hnil, hm⟩
  exact (h.supplied hnil).message_ok hm

theorem Ready.polls {me : Identifier} {id : Nat} {r r' : Roast F} {poll : Poll F}
    (hpolls : Polls me id r poll r') (h : r.Ready me) : r'.Ready me ∧ poll ≠ .panic := by
  induction hpolls with
  | panic hpanics => exact absurd hpanics h.not_panics
  | idle hacts => exact ⟨h.idle hacts, by simp⟩
  | complete hacts hout => exact ⟨h.complete hacts hout, by simp⟩
  | send hacts hout _ => exact ⟨h.acts hacts hout, by simp⟩
  | again hacts hout _ _ ih => exact ih (h.acts hacts hout)

end Roast

/-! ## Runs of an instance -/

inductive TssCall (F : Frost) where
  | onStart (id : Nat)
  | onSign (id : Nat) (data : List UInt8)
  | onComplete (id : Nat)
  | onMessage (peer : Identifier) (msg : TssMessage F)
  | nextAction (supply : List F.SigningNonces)

/-- An instance, and whether its last call panicked. -/
structure Process (F : Frost) where
  tss : Tss F
  panicked : Bool

def Process.step (p : Process F) (call : TssCall F) : Option (Process F) :=
  if p.panicked then none
  else
    match call with
    | .onStart id => some { p with tss := p.tss.onStart id }
    | .onSign id data => some { p with tss := p.tss.onSign id data }
    | .onComplete id => some { p with tss := p.tss.onComplete id }
    | .onMessage peer msg => some { p with tss := p.tss.onMessage peer msg }
    | .nextAction supply =>
        match p.tss.nextAction supply with
        | none => none
        | some (.panic, tss) => some ⟨tss, true⟩
        | some (_, tss) => some { p with tss := tss }

/-- A request comes from a coordinator the session has committed to or will
commit to, and not before its last one is off the queue. -/
def Expected (p : Process F) : TssCall F → Prop
  | .onMessage peer (.roast id (.sign _)) => ∀ r, p.tss.signingSessions.get id = some r →
      peer ∉ r.signer.asking ∧
        (peer ∈ r.coordinators ∨ r.signer.coordinators.get peer ≠ none)
  | _ => True

/-- All sessions are ready. -/
structure Tss.Ready (t : Tss F) : Prop where
  coordinators : t.coordinators.Nodup
  sessions : ∀ id r, t.signingSessions.get id = some r → r.Ready t.frostId

theorem Tss.Ready.session {t : Tss F} (h : t.Ready) (id : Nat) :
    (t.session id).Ready t.frostId := by
  rw [Tss.session, StorageMap.getD]
  cases hget : t.signingSessions.get id with
  | none => exact Roast.ready_new h.coordinators
  | some r => exact h.sessions id r hget

theorem Tss.Ready.setSession {t : Tss F} (h : t.Ready) {id : Nat} {r : Roast F}
    (hr : r.Ready t.frostId) : (t.setSession id r).Ready where
  coordinators := h.coordinators
  sessions id' r' hget := by
    rw [Tss.setSession_get] at hget
    split at hget
    · cases hget
      exact hr
    · exact h.sessions id' r' hget

theorem Tss.Ready.visits {ids : List Nat} {t t' : Tss F} {poll : Poll F}
    (hvisits : Tss.Visits ids t poll t') (h : t.Ready)
    (hids : ∀ id ∈ ids, t.signingSessions.get id ≠ none) : t'.Ready ∧ poll ≠ .panic := by
  induction hvisits with
  | done t => exact ⟨h, by simp⟩
  | missing hget => exact absurd hget (hids _ List.mem_cons_self)
  | @next t t' id ids r r' poll hget hpolls _ ih =>
      obtain ⟨hr', -⟩ := Roast.Ready.polls hpolls (h.sessions id r hget)
      refine ih (h.setSession hr') fun id' hid' => ?_
      rw [Tss.setSession_get]
      split
      · exact Option.some_ne_none _
      · exact hids id' (List.mem_cons_of_mem _ hid')
  | @stop t id ids r r' poll hget hpolls _ =>
      obtain ⟨hr', hpoll⟩ := Roast.Ready.polls hpolls (h.sessions id r hget)
      exact ⟨h.setSession hr', hpoll⟩

theorem Tss.Ready.nextAction {t t' : Tss F} {supply : List F.SigningNonces} {poll : Poll F}
    (h : t.Ready) (hnext : t.nextAction supply = some (poll, t')) : t'.Ready ∧ poll ≠ .panic :=
  Tss.Ready.visits (Tss.pollSessions_visits hnext) h fun _ => StorageMap.mem_map_iter.mp

theorem Tss.Ready.onMessage {t : Tss F} (h : t.Ready) {peer : Identifier} {msg : TssMessage F}
    (hexpected : ∀ id request r, msg = .roast id (.sign request) →
      t.signingSessions.get id = some r → peer ∉ r.signer.asking ∧
        (peer ∈ r.coordinators ∨ r.signer.coordinators.get peer ≠ none)) :
    (t.onMessage peer msg).Ready := by
  unfold Tss.onMessage
  split
  · exact h
  · next hne =>
    split
    · exact h
    · cases msg with
      | dkg => exact h
      | roast id msg =>
          dsimp only
          split
          · exact h
          · next r hget =>
            refine h.setSession ((h.sessions id r hget).onMessage (Ne.symm hne) ?_)
            rintro request rfl
            exact hexpected id request r rfl hget

theorem Expected.onMessage {p : Process F} {peer : Identifier} {msg : TssMessage F}
    (h : Expected p (.onMessage peer msg)) {id : Nat} {request : RoastSignerRequest F} {r : Roast F}
    (hmsg : msg = .roast id (.sign request)) (hget : p.tss.signingSessions.get id = some r) :
    peer ∉ r.signer.asking ∧
      (peer ∈ r.coordinators ∨ r.signer.coordinators.get peer ≠ none) := by
  subst hmsg
  exact h r hget

theorem Process.step_ready {p p' : Process F} {call : TssCall F} (h : p.tss.Ready)
    (hexpected : Expected p call) (hstep : p.step call = some p') :
    p'.tss.Ready ∧ p'.panicked = false := by
  unfold step at hstep
  split at hstep
  · cases hstep
  · next hrunning =>
    have hrunning := Bool.eq_false_of_not_eq_true hrunning
    cases call with
    | onStart id =>
        cases hstep
        exact ⟨h.setSession (h.session id), hrunning⟩
    | onSign id data =>
        cases hstep
        exact ⟨h.setSession ((h.session id).setData data), hrunning⟩
    | onComplete id =>
        cases hstep
        refine ⟨⟨h.coordinators, fun id' r hget => ?_⟩, hrunning⟩
        change (p.tss.signingSessions.remove id).get id' = some r at hget
        rw [StorageMap.get_remove] at hget
        split at hget
        · cases hget
        · exact h.sessions id' r hget
    | onMessage peer msg =>
        cases hstep
        exact ⟨h.onMessage fun _ _ _ => hexpected.onMessage, hrunning⟩
    | nextAction supply =>
        dsimp only at hstep
        split at hstep
        · cases hstep
        · next tss hnext => exact absurd rfl (h.nextAction hnext).2
        · next poll tss hpoll hnext =>
          cases hstep
          exact ⟨(h.nextAction hnext).1, hrunning⟩

/-- **Signers do not panic** over any run in which requests are `Expected`,
whatever else members send. -/
theorem run_not_panicked {frostId : Identifier} {members : List Identifier} {threshold : Nat}
    {keyPackage : F.KeyPackage} {publicKeyPackage : F.PublicKeyPackage} (hnodup : members.Nodup)
    {calls : List (TssCall F)} {p : Process F}
    (hrun : Run Process.step Expected
      ⟨.new frostId members threshold keyPackage publicKeyPackage, false⟩ calls p) :
    p.panicked = false := by
  have hready : p.tss.Ready ∧ p.panicked = false := by
    refine hrun.invariant (P := fun _ p => p.tss.Ready ∧ p.panicked = false) ?_ ?_
    · exact ⟨⟨hnodup.sublist (List.take_sublist _ _), fun _ _ hget => by cases hget⟩, rfl⟩
    · intro calls p call p' _ h hexpected hstep
      exact Process.step_ready h.1 hexpected hstep
  exact hready.2

/-- Member 1 of two with threshold 2, the only coordinator. -/
def toyProcess : Process toyFrost := ⟨.new 1 [1, 2] 2 1 (), false⟩

/-- It commits to itself and gets a request of its own session. -/
def expectedCalls : List (TssCall toyFrost) :=
  [.onSign 0 [7], .onMessage 2 (.roast 0 (.commit 20)), .nextAction [10, 11, 12]]

theorem expectedCalls_run : Run Process.step Expected toyProcess expectedCalls
    (Run.endState Process.step toyProcess expectedCalls) := by
  refine Run.to_endState ?_ (by decide)
  intro p call hcall
  simp only [expectedCalls, List.mem_cons, List.not_mem_nil, or_false] at hcall
  rcases hcall with rfl | rfl | rfl <;> exact trivial

theorem run_not_panicked_request :
    ((Run.endState Process.step toyProcess expectedCalls).tss.session 0).signer.asking = [1] ∧
      (Run.endState Process.step toyProcess expectedCalls).panicked = false :=
  ⟨by decide, run_not_panicked (by decide) expectedCalls_run⟩

/-- Member 2, which is no coordinator, sends a request. -/
def strayCalls : List (TssCall toyFrost) :=
  [.onSign 0 [7], .nextAction [10, 11], .onMessage 2 (.roast 0 (.sign ⟨0, ∅⟩)), .nextAction [12]]

theorem stray_request_panics :
    Run Process.step (fun _ _ => True) toyProcess strayCalls
        (Run.endState Process.step toyProcess strayCalls) ∧
      (Run.endState Process.step toyProcess strayCalls).panicked = true :=
  ⟨Run.to_endState (fun _ _ _ => trivial) (by decide), by decide⟩

end Signing

end Timechain
