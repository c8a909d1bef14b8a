import Timechain.Codec
import Timechain.Storage

/-!
# The ROAST state machine

One member's part in one signing session (`tss/src/roast.rs`). Every
member is a signer: it commits to each coordinator once, and answers a
request of a coordinator with a signature share and its next commitment.
Some members are coordinators as well: a coordinator pools commitments,
starts a session with `threshold` of them whenever it has that many, and
aggregates the first session whose shares are all there.

What the crate takes from FROST is a parameter (`Frost`). The random
numbers of `round1::commit` are inputs: `nextAction` gets the nonces it
would draw and draws them at most once. The branch of `expect` in
`RoastSigner::message` that panics is an `error`, with the state it
leaves behind.

Fields marked "History" are not in the source; nothing reads them.
-/

namespace Timechain

namespace Signing

abbrev Identifier : Type := Nat

structure SigningPackage (Commitments : Type) where
  signingCommitments : StorageMap Identifier Commitments
  message : List UInt8

/-- The FROST library, as far as signing uses it. -/
structure Frost where
  KeyPackage : Type
  PublicKeyPackage : Type
  SigningNonces : Type
  SigningCommitments : Type
  SignatureShare : Type
  Signature : Type
  /-- What `round1::commit` publishes about the nonces it draws. -/
  commitment : SigningNonces → SigningCommitments
  /-- `round2::sign`. -/
  sign : SigningPackage SigningCommitments → SigningNonces → KeyPackage → Option SignatureShare
  aggregate : SigningPackage SigningCommitments → StorageMap Identifier SignatureShare →
    PublicKeyPackage → Option Signature
  /-- `VerifyingKey::message_hash`. -/
  messageHash : List UInt8 → Bytes 32

structure RoastSignerRequest (F : Frost) where
  sessionId : Nat
  commitments : StorageMap Identifier F.SigningCommitments

structure RoastSignerResponse (F : Frost) where
  sessionId : Nat
  signatureShare : F.SignatureShare
  commitment : F.SigningCommitments

inductive RoastMessage (F : Frost) where
  | commit (commitment : F.SigningCommitments)
  | sign (request : RoastSignerRequest F)
  | signature (response : RoastSignerResponse F)

inductive RoastAction (F : Frost) where
  | send (peer : Identifier) (msg : RoastMessage F)
  | sendMany (peers : List Identifier) (msg : RoastMessage F)
  | complete (hash : Bytes 32) (signature : F.Signature)

/-- The members an action is addressed to. -/
def RoastAction.peers {F : Frost} : RoastAction F → List Identifier
  | .send peer _ => [peer]
  | .sendMany peers _ => peers
  | .complete _ _ => []

variable {F : Frost}

/-! ## Signers -/

structure RoastSigner (F : Frost) where
  keyPackage : F.KeyPackage
  data : Option (List UInt8)
  /-- The nonces of the last commitment to each coordinator. -/
  coordinators : StorageMap Identifier F.SigningNonces
  requests : List (Identifier × RoastSignerRequest F)
  /-- History: all nonces drawn. -/
  drawn : List F.SigningNonces
  /-- History: the calls of `round2::sign`, each with the coordinator it
  answers and the nonces it uses. -/
  signed : List (Identifier × F.SigningNonces)

namespace RoastSigner

def new (keyPackage : F.KeyPackage) : RoastSigner F where
  keyPackage := keyPackage
  data := none
  coordinators := ∅
  requests := []
  drawn := []
  signed := []

def setData (s : RoastSigner F) (data : List UInt8) : RoastSigner F := { s with data := some data }

/-- `commit`, with the nonces that are drawn. -/
def commit (s : RoastSigner F) (nonces : F.SigningNonces) (coordinator : Identifier) :
    F.SigningCommitments × RoastSigner F :=
  (F.commitment nonces,
    { s with
      coordinators := s.coordinators.insert coordinator nonces
      drawn := s.drawn ++ [nonces] })

def sign (s : RoastSigner F) (coordinator : Identifier) (request : RoastSignerRequest F) :
    RoastSigner F :=
  { s with requests := s.requests ++ [(coordinator, request)] }

/-- The nonces stored for a coordinator are gone before they are used. -/
def spend (s : RoastSigner F) (coordinator : Identifier) (nonces : F.SigningNonces) :
    RoastSigner F :=
  { s with
    coordinators := s.coordinators.remove coordinator
    signed := s.signed ++ [(coordinator, nonces)] }

/-- The loop of `message` over the queued requests. -/
def messageLoop (data : List UInt8) (nonces : F.SigningNonces) :
    List (Identifier × RoastSignerRequest F) → RoastSigner F →
    Except (RoastSigner F) (Option (Identifier × RoastSignerResponse F) × RoastSigner F)
  | [], s => .ok (none, s)
  | (coordinator, request) :: requests, s =>
      -- `pop_front`
      let s := { s with requests := requests }
      match s.coordinators.get coordinator with
      | none => .error s
      | some stored =>
          let s := s.spend coordinator stored
          match F.sign ⟨request.commitments, data⟩ stored s.keyPackage with
          | none => messageLoop data nonces requests s
          | some signatureShare =>
              let (commitment, s) := s.commit nonces coordinator
              .ok (some (coordinator, ⟨request.sessionId, signatureShare, commitment⟩), s)

def message (s : RoastSigner F) (nonces : F.SigningNonces) :
    Except (RoastSigner F) (Option (Identifier × RoastSignerResponse F) × RoastSigner F) :=
  match s.data with
  | none => .ok (none, s)
  | some data => messageLoop data nonces s.requests s

end RoastSigner

/-! ## Sessions and coordinators -/

structure RoastSession (F : Frost) where
  commitments : StorageMap Identifier F.SigningCommitments
  signatureShares : StorageMap Identifier F.SignatureShare

namespace RoastSession

def new (commitments : StorageMap Identifier F.SigningCommitments) : RoastSession F :=
  ⟨commitments, ∅⟩

def onSignatureShare (s : RoastSession F) (peer : Identifier) (share : F.SignatureShare) :
    RoastSession F :=
  if s.commitments.containsKey peer then
    { s with signatureShares := s.signatureShares.insert peer share }
  else s

def isComplete (s : RoastSession F) : Bool := s.commitments.len == s.signatureShares.len

end RoastSession

structure RoastCoordinator (F : Frost) where
  threshold : Nat
  sessionId : Nat
  commitments : StorageMap Identifier F.SigningCommitments
  sessions : StorageMap Nat (RoastSession F)
  committed : Finset Identifier

/-- The loop of `start_session`: entries with the largest identifiers move
from the commitments taken back to the pool. -/
def putBack {V : Type} (threshold : Nat) :
    (fuel : Nat) → (commitments pool : StorageMap Identifier V) →
    StorageMap Identifier V × StorageMap Identifier V
  | 0, commitments, pool => (commitments, pool)
  | fuel + 1, commitments, pool =>
      if threshold < commitments.len then
        match commitments.popLast id with
        | none => (commitments, pool)
        | some ((peer, commitment), commitments) =>
            putBack threshold fuel commitments (pool.insert peer commitment)
      else (commitments, pool)

namespace RoastCoordinator

def new (F : Frost) (threshold : Nat) : RoastCoordinator F where
  threshold := threshold
  sessionId := 0
  commitments := ∅
  sessions := ∅
  committed := ∅

def onCommit (k : RoastCoordinator F) (peer : Identifier) (commitment : F.SigningCommitments) :
    RoastCoordinator F :=
  if peer ∈ k.committed then k
  else
    { k with
      commitments := k.commitments.insert peer commitment
      committed := insert peer k.committed }

def onResponse (k : RoastCoordinator F) (peer : Identifier) (message : RoastSignerResponse F) :
    RoastCoordinator F :=
  match k.sessions.get message.sessionId with
  | none => k
  | some session =>
      { k with
        commitments := k.commitments.insert peer message.commitment
        sessions := k.sessions.insert message.sessionId
          (session.onSignatureShare peer message.signatureShare) }

def startSession (k : RoastCoordinator F) : Option (RoastSignerRequest F × RoastCoordinator F) :=
  if k.commitments.len < k.threshold then none
  else
    let (commitments, pool) := putBack k.threshold k.commitments.len k.commitments ∅
    some (⟨k.sessionId, commitments⟩,
      { k with
        -- `wrapping_add`
        sessionId := (k.sessionId + 1) % 2 ^ 16
        commitments := pool
        sessions := k.sessions.insert k.sessionId (.new commitments) })

def aggregateSignature (k : RoastCoordinator F) : Option (RoastSession F × RoastCoordinator F) :=
  ((k.sessions.iter id).find? fun e => e.2.isComplete).map fun e =>
    (e.2, { k with sessions := k.sessions.remove e.1 })

end RoastCoordinator

/-! ## The state machine -/

structure Roast (F : Frost) where
  signer : RoastSigner F
  coordinator : Option (RoastCoordinator F)
  publicKeyPackage : F.PublicKeyPackage
  /-- The coordinators still to be committed to, in ascending order. -/
  coordinators : List Identifier
  /-- History: the number of sessions started. -/
  started : Nat

namespace Roast

def new (id : Identifier) (threshold : Nat) (keyPackage : F.KeyPackage)
    (publicKeyPackage : F.PublicKeyPackage) (coordinators : List Identifier) : Roast F where
  signer := .new keyPackage
  coordinator := if id ∈ coordinators then some (.new F threshold) else none
  publicKeyPackage := publicKeyPackage
  coordinators := coordinators
  started := 0

def setData (r : Roast F) (data : List UInt8) : Roast F := { r with signer := r.signer.setData data }

def onMessage (r : Roast F) (peer : Identifier) : RoastMessage F → Roast F
  | .commit commitment => { r with coordinator := r.coordinator.map (·.onCommit peer commitment) }
  | .sign request => { r with signer := r.signer.sign peer request }
  | .signature response =>
      { r with coordinator := r.coordinator.map (·.onResponse peer response) }

/-- The first half of `next_action`: a complete session is taken out of the
coordinator, and its shares are aggregated. -/
def aggregate (r : Roast F) (k : RoastCoordinator F) :
    Option (Bytes 32 × F.Signature) × RoastCoordinator F :=
  match r.signer.data with
  | none => (none, k)
  | some data =>
      match k.aggregateSignature with
      | none => (none, k)
      | some (session, k) =>
          ((F.aggregate ⟨session.commitments, data⟩ session.signatureShares
            r.publicKeyPackage).map fun signature => (F.messageHash data, signature), k)

/-- The second half of `next_action`: what the member does as a signer. -/
def signerAction (r : Roast F) (nonces : F.SigningNonces) :
    Except (Roast F) (Option (RoastAction F) × Roast F) :=
  match r.coordinators.getLast? with
  | some coordinator =>
      let (commitment, signer) := r.signer.commit nonces coordinator
      .ok (some (.send coordinator (.commit commitment)),
        { r with signer := signer, coordinators := r.coordinators.dropLast })
  | none =>
      match r.signer.message nonces with
      | .error signer => .error { r with signer := signer }
      | .ok (some (coordinator, response), signer) =>
          .ok (some (.send coordinator (.signature response)), { r with signer := signer })
      | .ok (none, signer) => .ok (none, { r with signer := signer })

def nextAction (r : Roast F) (nonces : F.SigningNonces) :
    Except (Roast F) (Option (RoastAction F) × Roast F) :=
  match r.coordinator with
  | none => r.signerAction nonces
  | some k =>
      match r.aggregate k with
      | (some (hash, signature), _) =>
          .ok (some (.complete hash signature), { r with coordinator := none })
      | (none, k) =>
          match k.startSession with
          | some (request, k) =>
              .ok (some (.sendMany ((request.commitments.iter id).map Prod.fst) (.sign request)),
                { r with coordinator := some k, started := r.started + 1 })
          | none => { r with coordinator := some k }.signerAction nonces

end Roast

/-! ## What the coordinator's calls do -/

/-- Each entry stays or goes back. -/
theorem putBack_get {V : Type} {threshold fuel : Nat}
    {commitments pool commitments' pool' : StorageMap Identifier V}
    (h : putBack threshold fuel commitments pool = (commitments', pool')) (p : Identifier) :
    (commitments'.get p = commitments.get p ∧ pool'.get p = pool.get p) ∨
      (commitments.get p ≠ none ∧ commitments'.get p = none ∧
        pool'.get p = commitments.get p) := by
  induction fuel generalizing commitments pool with
  | zero =>
      obtain ⟨rfl, rfl⟩ := Prod.mk.injEq .. |>.mp h
      exact .inl ⟨rfl, rfl⟩
  | succ fuel ih =>
      rw [putBack] at h
      split at h
      · split at h
        · obtain ⟨rfl, rfl⟩ := Prod.mk.injEq .. |>.mp h
          exact .inl ⟨rfl, rfl⟩
        · next peer commitment rest hpop =>
          obtain ⟨hpeer, rfl⟩ := StorageMap.popLast_eq_some hpop
          have hcase := ih h
          by_cases hp : p = peer
          · subst hp
            rw [StorageMap.get_remove_self, StorageMap.get_insert_self] at hcase
            rcases hcase with ⟨hc, hpool⟩ | ⟨hne, -⟩
            · rw [hpeer]
              exact .inr ⟨Option.some_ne_none _, hc, hpool⟩
            · exact absurd rfl hne
          · rwa [StorageMap.get_remove_of_ne _ hp, StorageMap.get_insert_of_ne _ _ hp] at hcase
      · obtain ⟨rfl, rfl⟩ := Prod.mk.injEq .. |>.mp h
        exact .inl ⟨rfl, rfl⟩

/-- The fuel suffices: `threshold` entries are left. -/
theorem putBack_len {V : Type} {threshold fuel : Nat}
    {commitments pool commitments' pool' : StorageMap Identifier V}
    (h : putBack threshold fuel commitments pool = (commitments', pool'))
    (hfuel : commitments.len ≤ threshold + fuel) (hle : threshold ≤ commitments.len) :
    commitments'.len = threshold := by
  induction fuel generalizing commitments pool with
  | zero =>
      obtain ⟨rfl, rfl⟩ := Prod.mk.injEq .. |>.mp h
      omega
  | succ fuel ih =>
      rw [putBack] at h
      split at h
      · next hlt =>
        split at h
        · next hpop =>
          have := StorageMap.popLast_eq_none hpop
          omega
        · next peer commitment rest hpop =>
          obtain ⟨hpeer, rfl⟩ := StorageMap.popLast_eq_some hpop
          have hmem : peer ∈ commitments.keySet :=
            StorageMap.mem_keySet.mpr (hpeer ▸ Option.some_ne_none _)
          have hlen : (commitments.remove peer).len + 1 = commitments.len := by
            rw [← StorageMap.card_keySet, ← StorageMap.card_keySet, StorageMap.keySet_remove,
              Finset.card_erase_add_one hmem]
          exact ih h (by omega) (by omega)
      · obtain ⟨rfl, rfl⟩ := Prod.mk.injEq .. |>.mp h
        omega

namespace RoastCoordinator

/-- A new session takes `threshold` of the pooled commitments. -/
structure Starts (k : RoastCoordinator F) (request : RoastSignerRequest F)
    (k' : RoastCoordinator F) : Prop where
  enough : k.threshold ≤ k.commitments.len
  id : request.sessionId = k.sessionId
  len : request.commitments.len = k.threshold
  split : ∀ p, (request.commitments.get p = k.commitments.get p ∧ k'.commitments.get p = none) ∨
    (request.commitments.get p = none ∧ k'.commitments.get p = k.commitments.get p)
  next : k' = { k with
    sessionId := (k.sessionId + 1) % 2 ^ 16
    commitments := k'.commitments
    sessions := k.sessions.insert k.sessionId (.new request.commitments) }

theorem startSession_starts {k k' : RoastCoordinator F} {request : RoastSignerRequest F}
    (h : k.startSession = some (request, k')) : k.Starts request k' := by
  rw [startSession] at h
  split at h
  · cases h
  · next hle =>
    have hput : putBack k.threshold k.commitments.len k.commitments ∅
        = ((putBack k.threshold k.commitments.len k.commitments ∅).1,
          (putBack k.threshold k.commitments.len k.commitments ∅).2) := rfl
    cases h
    refine ⟨by omega, rfl, putBack_len hput (by omega) (by omega), fun p => ?_, rfl⟩
    rcases putBack_get hput p with ⟨hc, hpool⟩ | ⟨-, hc, hpool⟩
    · exact .inl ⟨hc, hpool⟩
    · exact .inr ⟨hc, hpool⟩

theorem startSession_eq_none {k : RoastCoordinator F} :
    k.startSession = none ↔ k.commitments.len < k.threshold := by
  rw [startSession]
  split
  · next h => simp [h]
  · next h => simp [h]

theorem aggregateSignature_eq_some {k k' : RoastCoordinator F} {session : RoastSession F}
    (h : k.aggregateSignature = some (session, k')) :
    ∃ i, k.sessions.get i = some session ∧ session.isComplete = true ∧
      k' = { k with sessions := k.sessions.remove i } := by
  rw [aggregateSignature, Option.map_eq_some_iff] at h
  obtain ⟨⟨i, session'⟩, hfind, heq⟩ := h
  obtain ⟨rfl, rfl⟩ := Prod.mk.injEq .. |>.mp heq
  have hcomplete := List.find?_some hfind
  exact ⟨i, StorageMap.mem_iter.mp (List.mem_of_find?_eq_some hfind), hcomplete, rfl⟩

theorem aggregateSignature_eq_none {k : RoastCoordinator F} (h : k.aggregateSignature = none)
    {i : Nat} {session : RoastSession F} (hi : k.sessions.get i = some session) :
    session.isComplete = false := by
  rw [aggregateSignature, Option.map_eq_none_iff, List.find?_eq_none] at h
  exact Bool.eq_false_of_not_eq_true (h _ (StorageMap.mem_iter.mpr hi))

end RoastCoordinator

/-! ## What `message` does -/

namespace RoastSigner

/-- Requests are taken off the queue; each costs the nonces stored for its
coordinator. -/
inductive Spends : RoastSigner F → List (Identifier × F.SigningNonces) → RoastSigner F → Prop
  | done (s : RoastSigner F) : Spends s [] s
  | next {s s' : RoastSigner F} {c : Identifier} {request : RoastSignerRequest F}
      {requests : List (Identifier × RoastSignerRequest F)} {stored : F.SigningNonces}
      {spent : List (Identifier × F.SigningNonces)} : s.requests = (c, request) :: requests →
      s.coordinators.get c = some stored →
      Spends ({ s with requests := requests }.spend c stored) spent s' →
      Spends s ((c, stored) :: spent) s'

/-- What never changes. -/
theorem Spends.frame {s s' : RoastSigner F} {spent : List (Identifier × F.SigningNonces)}
    (h : Spends s spent s') : s'.data = s.data ∧ s'.keyPackage = s.keyPackage := by
  induction h with
  | done s => exact ⟨rfl, rfl⟩
  | next _ _ _ ih => exact ih

/-- The three ways `message` ends: all requests failed, one of them did not,
or one finds no nonces. -/
inductive Answers (s : RoastSigner F) (nonces : F.SigningNonces) :
    Except (RoastSigner F) (Option (Identifier × RoastSignerResponse F) × RoastSigner F) → Prop
  | silent {spent : List (Identifier × F.SigningNonces)} {s' : RoastSigner F} : Spends s spent s' →
      Answers s nonces (.ok (none, s'))
  | response {spent : List (Identifier × F.SigningNonces)} {s' : RoastSigner F} {c : Identifier}
      {response : RoastSignerResponse F} : Spends s spent s' → c ∈ spent.map Prod.fst →
      response.commitment = F.commitment nonces →
      Answers s nonces (.ok (some (c, response), (s'.commit nonces c).2))
  | panic {spent : List (Identifier × F.SigningNonces)} {s' : RoastSigner F} {c : Identifier}
      {request : RoastSignerRequest F} {requests : List (Identifier × RoastSignerRequest F)} :
      Spends s spent s' → s'.requests = (c, request) :: requests →
      s'.coordinators.get c = none →
      Answers s nonces (.error { s' with requests := requests })

theorem Answers.spend {s : RoastSigner F} {nonces : F.SigningNonces} {c : Identifier}
    {request : RoastSignerRequest F} {requests : List (Identifier × RoastSignerRequest F)}
    {stored : F.SigningNonces}
    {result : Except (RoastSigner F) (Option (Identifier × RoastSignerResponse F) × RoastSigner F)}
    (hreq : s.requests = (c, request) :: requests) (hstored : s.coordinators.get c = some stored)
    (h : ({ s with requests := requests }.spend c stored).Answers nonces result) :
    s.Answers nonces result := by
  cases h with
  | silent hspends => exact .silent (.next hreq hstored hspends)
  | response hspends hc hcommit =>
      exact .response (.next hreq hstored hspends) (List.mem_cons_of_mem _ hc) hcommit
  | panic hspends hq hget => exact .panic (.next hreq hstored hspends) hq hget

theorem messageLoop_answers (data : List UInt8) (nonces : F.SigningNonces)
    {requests : List (Identifier × RoastSignerRequest F)} {s : RoastSigner F}
    (hreq : s.requests = requests) : s.Answers nonces (messageLoop data nonces requests s) := by
  induction requests generalizing s with
  | nil => exact .silent (.done s)
  | cons e requests ih =>
      obtain ⟨c, request⟩ := e
      rw [messageLoop]
      split
      · next hget => exact .panic (.done s) hreq hget
      · next stored hget =>
        dsimp only
        split
        · exact .spend hreq hget (ih rfl)
        · exact .response (.next hreq hget (.done _)) (List.mem_singleton_self _) rfl

theorem message_answers (s : RoastSigner F) (nonces : F.SigningNonces) :
    s.Answers nonces (s.message nonces) := by
  rw [message]
  split
  · exact .silent (.done s)
  · exact messageLoop_answers _ nonces rfl

theorem message_frame {s s' : RoastSigner F} {nonces : F.SigningNonces}
    {o : Option (Identifier × RoastSignerResponse F)} (h : s.message nonces = .ok (o, s')) :
    s'.data = s.data ∧ s'.keyPackage = s.keyPackage := by
  have hans := h ▸ s.message_answers nonces
  cases hans with
  | silent hspends => exact hspends.frame
  | response hspends _ _ => exact hspends.frame

theorem message_error_frame {s s' : RoastSigner F} {nonces : F.SigningNonces}
    (h : s.message nonces = .error s') : s'.data = s.data ∧ s'.keyPackage = s.keyPackage := by
  have hans := h ▸ s.message_answers nonces
  cases hans with
  | panic hspends _ _ => exact hspends.frame

end RoastSigner

/-! ## What a call of `nextAction` does -/

namespace Roast

/-- The coordinator has nothing to do, and is left as `o`. -/
inductive Waits (r : Roast F) : Option (RoastCoordinator F) → Prop
  | signer : r.coordinator = none → Waits r none
  | coordinator {k k' : RoastCoordinator F} : r.coordinator = some k → r.aggregate k = (none, k') →
      k'.startSession = none → Waits r (some k')

inductive Acts (r : Roast F) (nonces : F.SigningNonces) : Option (RoastAction F) → Roast F → Prop
  | complete {k k' : RoastCoordinator F} {session : RoastSession F} {data : List UInt8}
      {signature : F.Signature} : r.coordinator = some k → r.signer.data = some data →
      k.aggregateSignature = some (session, k') →
      F.aggregate ⟨session.commitments, data⟩ session.signatureShares r.publicKeyPackage
        = some signature →
      Acts r nonces (some (.complete (F.messageHash data) signature)) { r with coordinator := none }
  | start {k k' k'' : RoastCoordinator F} {request : RoastSignerRequest F} :
      r.coordinator = some k → r.aggregate k = (none, k') → k'.Starts request k'' →
      Acts r nonces (some (.sendMany ((request.commitments.iter id).map Prod.fst) (.sign request)))
        { r with coordinator := some k'', started := r.started + 1 }
  | commit {o : Option (RoastCoordinator F)} {c : Identifier} : r.Waits o →
      r.coordinators.getLast? = some c →
      Acts r nonces (some (.send c (.commit (F.commitment nonces))))
        { r with
          coordinator := o
          signer := (r.signer.commit nonces c).2
          coordinators := r.coordinators.dropLast }
  | reply {o : Option (RoastCoordinator F)} {c : Identifier} {response : RoastSignerResponse F}
      {signer : RoastSigner F} : r.Waits o → r.coordinators = [] →
      r.signer.message nonces = .ok (some (c, response), signer) →
      Acts r nonces (some (.send c (.signature response)))
        { r with coordinator := o, signer := signer }
  | idle {o : Option (RoastCoordinator F)} {signer : RoastSigner F} : r.Waits o →
      r.coordinators = [] → r.signer.message nonces = .ok (none, signer) →
      Acts r nonces none { r with coordinator := o, signer := signer }

/-- Either a call acts, or a request is queued whose coordinator has no
commitment. -/
inductive Panics (r : Roast F) (nonces : F.SigningNonces) : Roast F → Prop
  | message {o : Option (RoastCoordinator F)} {signer : RoastSigner F} : r.Waits o →
      r.coordinators = [] → r.signer.message nonces = .error signer →
      Panics r nonces { r with coordinator := o, signer := signer }

theorem aggregate_eq_some {r : Roast F} {k k' : RoastCoordinator F} {hash : Bytes 32}
    {signature : F.Signature} (h : r.aggregate k = (some (hash, signature), k')) :
    ∃ data session, r.signer.data = some data ∧ k.aggregateSignature = some (session, k') ∧
      F.aggregate ⟨session.commitments, data⟩ session.signatureShares r.publicKeyPackage
        = some signature ∧ hash = F.messageHash data := by
  rw [aggregate] at h
  split at h
  · cases h
  · next data hdata =>
    split at h
    · cases h
    · next session k₁ hs =>
      obtain ⟨hmap, rfl⟩ := Prod.mk.injEq .. |>.mp h
      obtain ⟨signature', hsig, heq⟩ := Option.map_eq_some_iff.mp hmap
      obtain ⟨rfl, rfl⟩ := Prod.mk.injEq .. |>.mp heq
      exact ⟨data, session, hdata, hs, hsig, rfl⟩

theorem signerAction_ok {r r' : Roast F} {nonces : F.SigningNonces} {a : Option (RoastAction F)}
    {o : Option (RoastCoordinator F)} (hwaits : r.Waits o)
    (h : { r with coordinator := o }.signerAction nonces = .ok (a, r')) : r.Acts nonces a r' := by
  rw [signerAction] at h
  split at h
  · next c hc =>
    cases h
    exact .commit hwaits hc
  · next hnil =>
    have hnil := List.getLast?_eq_none_iff.mp hnil
    split at h
    · cases h
    · next c response signer hm =>
      cases h
      exact .reply hwaits hnil hm
    · next signer hm =>
      cases h
      exact .idle hwaits hnil hm

theorem signerAction_error {r r' : Roast F} {nonces : F.SigningNonces}
    {o : Option (RoastCoordinator F)} (hwaits : r.Waits o)
    (h : { r with coordinator := o }.signerAction nonces = .error r') : r.Panics nonces r' := by
  rw [signerAction] at h
  split at h
  · cases h
  · next hnil =>
    split at h
    · next signer hm =>
      cases h
      exact .message hwaits (List.getLast?_eq_none_iff.mp hnil) hm
    · cases h
    · cases h

theorem nextAction_ok {r r' : Roast F} {nonces : F.SigningNonces} {a : Option (RoastAction F)}
    (h : r.nextAction nonces = .ok (a, r')) : r.Acts nonces a r' := by
  rw [nextAction] at h
  split at h
  · next hnone =>
    refine signerAction_ok (.signer hnone) ?_
    rwa [← hnone]
  · next k hk =>
    split at h
    · next hash signature k' hagg =>
      obtain ⟨data, session, hdata, hs, hsig, rfl⟩ := aggregate_eq_some hagg
      cases h
      exact .complete hk hdata hs hsig
    · next k' hagg =>
      split at h
      · next request k'' hstart =>
        cases h
        exact .start hk hagg (RoastCoordinator.startSession_starts hstart)
      · next hstart => exact signerAction_ok (.coordinator hk hagg hstart) h

theorem nextAction_error {r r' : Roast F} {nonces : F.SigningNonces}
    (h : r.nextAction nonces = .error r') : r.Panics nonces r' := by
  rw [nextAction] at h
  split at h
  · next hnone =>
    refine signerAction_error (.signer hnone) ?_
    rwa [← hnone]
  · next k hk =>
    split at h
    · cases h
    · next k' hagg =>
      split at h
      · cases h
      · next hstart => exact signerAction_error (.coordinator hk hagg hstart) h

/-- What no call changes. -/
structure Frame (r r' : Roast F) : Prop where
  data : r'.signer.data = r.signer.data
  keyPackage : r'.signer.keyPackage = r.signer.keyPackage
  publicKeyPackage : r'.publicKeyPackage = r.publicKeyPackage

theorem Acts.frame {r r' : Roast F} {nonces : F.SigningNonces} {a : Option (RoastAction F)}
    (h : r.Acts nonces a r') : r.Frame r' := by
  cases h with
  | complete => exact ⟨rfl, rfl, rfl⟩
  | start => exact ⟨rfl, rfl, rfl⟩
  | commit => exact ⟨rfl, rfl, rfl⟩
  | reply _ _ hm =>
      obtain ⟨hdata, hkey⟩ := RoastSigner.message_frame hm
      exact ⟨hdata, hkey, rfl⟩
  | idle _ _ hm =>
      obtain ⟨hdata, hkey⟩ := RoastSigner.message_frame hm
      exact ⟨hdata, hkey, rfl⟩

theorem Panics.frame {r r' : Roast F} {nonces : F.SigningNonces} (h : r.Panics nonces r') :
    r.Frame r' := by
  cases h with
  | message _ _ hm =>
      obtain ⟨hdata, hkey⟩ := RoastSigner.message_error_frame hm
      exact ⟨hdata, hkey, rfl⟩

theorem onMessage_frame (r : Roast F) (peer : Identifier) (msg : RoastMessage F) :
    r.Frame (r.onMessage peer msg) := by
  cases msg <;> exact ⟨rfl, rfl, rfl⟩

end Roast

/-! ## A small instance -/

/-- A FROST for concrete runs: key packages are identifiers, a commitment is
the nonce itself, and so is the share signed with it. -/
abbrev toyFrost : Frost where
  KeyPackage := Identifier
  PublicKeyPackage := Unit
  SigningNonces := Nat
  SigningCommitments := Nat
  SignatureShare := Nat
  Signature := List Nat
  commitment nonces := nonces
  sign package nonces key :=
    if package.signingCommitments.get key = some nonces then some nonces else none
  aggregate package shares _ :=
    let signers := package.signingCommitments.iter id
    if signers.all fun e => shares.get e.1 == some e.2 then some (signers.map Prod.snd) else none
  messageHash data := Vector.replicate 32 (data.headD 0)

end Signing

end Timechain
