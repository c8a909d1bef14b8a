import Timechain.TssCoordinator
import Timechain.TssNetwork

/-!
# A member and a coordinator

Between a member and a coordinator there is one commitment at a time. It
is offered, lies in the pool of the coordinator, comes back in a request,
waits in the queue of the member, and is replaced by the next one in the
response - and after each step it is in one place only: with one of the
two or on the wire (`Link.Holds`). Once the coordinator has its signature,
what it is sent is lost.

A `Link` is what the two keep about each other and the messages between
them. The lemmas here are the steps of a link.
-/

namespace Timechain

namespace Signing

variable {F : Frost}

/-! ## Both ends of a link -/

/-- What a member keeps about a coordinator. -/
structure Desk (F : Frost) where
  /-- It has yet to commit to it. -/
  fresh : Bool
  stored : Option F.SigningNonces
  queue : List (RoastSignerRequest F)

/-- What a coordinator keeps about a member. -/
structure Book (F : Frost) where
  pool : Option F.SigningCommitments
  committed : Bool
  /-- The commitments of a session in which the member's share is missing. -/
  awaits : Nat → Option (StorageMap Identifier F.SigningCommitments)

structure Link (F : Frost) where
  desk : Desk F
  wire : List (RoastMessage F)
  /-- `none` once the coordinator has its signature. -/
  book : Option (Book F)

/-- The requests of a coordinator. -/
def RoastSigner.queue (s : RoastSigner F) (c : Identifier) : List (RoastSignerRequest F) :=
  s.requests.filterMap fun e => if e.1 = c then some e.2 else none

def RoastCoordinator.awaits (k : RoastCoordinator F) (m : Identifier) (i : Nat) :
    Option (StorageMap Identifier F.SigningCommitments) :=
  (k.sessions.get i).bind fun session =>
    if (session.signatureShares.get m).isNone then some session.commitments else none

def RoastCoordinator.book (k : RoastCoordinator F) (m : Identifier) : Book F where
  pool := k.commitments.get m
  committed := decide (m ∈ k.committed)
  awaits := k.awaits m

namespace Roast

def desk (r : Roast F) (c : Identifier) : Desk F where
  fresh := decide (c ∈ r.coordinators)
  stored := r.signer.coordinators.get c
  queue := r.signer.queue c

def book (r : Roast F) (m : Identifier) : Option (Book F) := r.coordinator.map (·.book m)

end Roast

/-! ## Where the commitment is -/

namespace Link

section Holds

variable (threshold : Nat)
  (Valid : StorageMap Identifier F.SigningCommitments → Identifier → F.SignatureShare → Prop)
  (m : Identifier)

/-- The coordinator has not heard of the member. -/
def Unheard (book : Option (Book F)) : Prop :=
  ∀ b, book = some b → b.pool = none ∧ b.committed = false

/-- A request for a share of the member, which has stored `nonces`. -/
structure Asks (nonces : F.SigningNonces) (request : RoastSignerRequest F)
    (book : Option (Book F)) : Prop where
  own : request.commitments.get m = some (F.commitment nonces)
  len : request.commitments.len = threshold
  waiting : ∀ b, book = some b →
    b.pool = none ∧ b.awaits request.sessionId = some request.commitments

/-- A response of the member, which has stored `nonces` since. -/
structure Replies (nonces : F.SigningNonces) (response : RoastSignerResponse F)
    (book : Option (Book F)) : Prop where
  next : response.commitment = F.commitment nonces
  waiting : ∀ b, book = some b → b.pool = none ∧ ∃ commitments,
    b.awaits response.sessionId = some commitments ∧ commitments.get m ≠ none ∧
      Valid commitments m response.signatureShare

/-- The commitment is in one place. -/
inductive Holds : Link F → Prop
  | fresh {stored : Option F.SigningNonces} {book : Option (Book F)} : Unheard book →
      Holds ⟨⟨true, stored, []⟩, [], book⟩
  | offered {nonces : F.SigningNonces} {book : Option (Book F)} : Unheard book →
      Holds ⟨⟨false, some nonces, []⟩, [.commit (F.commitment nonces)], book⟩
  | pooled {nonces : F.SigningNonces} {b : Book F} : b.pool = some (F.commitment nonces) →
      Holds ⟨⟨false, some nonces, []⟩, [], some b⟩
  | asked {nonces : F.SigningNonces} {request : RoastSignerRequest F} {book : Option (Book F)} :
      Asks threshold m nonces request book →
      Holds ⟨⟨false, some nonces, []⟩, [.sign request], book⟩
  | queued {nonces : F.SigningNonces} {request : RoastSignerRequest F} {book : Option (Book F)} :
      Asks threshold m nonces request book →
      Holds ⟨⟨false, some nonces, [request]⟩, [], book⟩
  | answered {nonces : F.SigningNonces} {response : RoastSignerResponse F}
      {book : Option (Book F)} : Replies Valid m nonces response book →
      Holds ⟨⟨false, some nonces, []⟩, [.signature response], book⟩
  | lost {stored : Option F.SigningNonces} : Holds ⟨⟨false, stored, []⟩, [], none⟩

end Holds

namespace Holds

variable {threshold : Nat}
  {Valid : StorageMap Identifier F.SigningCommitments → Identifier → F.SignatureShare → Prop}
  {m : Identifier} {desk : Desk F} {wire : List (RoastMessage F)} {book : Option (Book F)}
  {b b' : Book F}

/-- The coordinator has its signature. -/
theorem close (h : Holds threshold Valid m ⟨desk, wire, book⟩) :
    Holds threshold Valid m ⟨desk, wire, none⟩ := by
  cases h with
  | fresh => exact .fresh fun _ hb => by cases hb
  | offered => exact .offered fun _ hb => by cases hb
  | pooled => exact .lost
  | asked h => exact .asked ⟨h.own, h.len, fun _ hb => by cases hb⟩
  | queued h => exact .queued ⟨h.own, h.len, fun _ hb => by cases hb⟩
  | answered h => exact .answered ⟨h.next, fun _ hb => by cases hb⟩
  | lost => exact .lost

/-- The coordinator waits in more sessions. -/
theorem extend (h : Holds threshold Valid m ⟨desk, wire, some b⟩) (hpool : b'.pool = b.pool)
    (hcommitted : b'.committed = b.committed)
    (hawaits : ∀ i commitments, b.awaits i = some commitments → b'.awaits i = some commitments) :
    Holds threshold Valid m ⟨desk, wire, some b'⟩ := by
  have hunheard : Unheard (some b) → Unheard (some b') := by
    intro h b₁ hb₁
    cases hb₁
    rw [hpool, hcommitted]
    exact h b rfl
  have hasks : ∀ {nonces request}, Asks threshold m nonces request (some b) →
      Asks threshold m nonces request (some b') := by
    intro nonces request h
    refine ⟨h.own, h.len, fun b₁ hb₁ => ?_⟩
    cases hb₁
    rw [hpool]
    exact ⟨(h.waiting b rfl).1, hawaits _ _ (h.waiting b rfl).2⟩
  cases h with
  | fresh h => exact .fresh (hunheard h)
  | offered h => exact .offered (hunheard h)
  | pooled h => exact .pooled (hpool ▸ h)
  | asked h => exact .asked (hasks h)
  | queued h => exact .queued (hasks h)
  | answered h =>
      refine .answered ⟨h.next, fun b₁ hb₁ => ?_⟩
      cases hb₁
      obtain ⟨hnone, commitments, hi, hc, hvalid⟩ := h.waiting b rfl
      exact ⟨hpool.trans hnone, commitments, hawaits _ _ hi, hc, hvalid⟩

/-- The member commits. -/
theorem commit (nonces : F.SigningNonces) (h : Holds threshold Valid m ⟨desk, wire, book⟩)
    (hfresh : desk.fresh = true) :
    Holds threshold Valid m
      ⟨⟨false, some nonces, desk.queue⟩, wire ++ [.commit (F.commitment nonces)], book⟩ := by
  cases h with
  | fresh h => exact .offered h
  | _ => cases hfresh

/-- The commitment is pooled. -/
theorem takeCommit {commitment : F.SigningCommitments}
    (h : Holds threshold Valid m ⟨desk, [.commit commitment], some b⟩)
    (hpool : b.committed = false → b'.pool = some commitment) :
    Holds threshold Valid m ⟨desk, [], some b'⟩ := by
  cases h with
  | offered h => exact .pooled (hpool (h b rfl).2)

/-- A session takes the commitment. -/
theorem ask {request : RoastSignerRequest F}
    (h : Holds threshold Valid m ⟨desk, wire, some b⟩) (hsome : b.pool ≠ none)
    (htaken : request.commitments.get m = b.pool) (hlen : request.commitments.len = threshold)
    (hpool : b'.pool = none) (hawaits : b'.awaits request.sessionId = some request.commitments) :
    Holds threshold Valid m ⟨desk, wire ++ [.sign request], some b'⟩ := by
  cases h with
  | pooled h =>
      refine .asked ⟨htaken.trans h, hlen, fun b₁ hb₁ => ?_⟩
      cases hb₁
      exact ⟨hpool, hawaits⟩
  | fresh h => exact absurd (h b rfl).1 hsome
  | offered h => exact absurd (h b rfl).1 hsome
  | asked h => exact absurd (h.waiting b rfl).1 hsome
  | queued h => exact absurd (h.waiting b rfl).1 hsome
  | answered h => exact absurd (h.waiting b rfl).1 hsome

theorem takeSign {request : RoastSignerRequest F}
    (h : Holds threshold Valid m ⟨desk, [.sign request], book⟩) :
    Holds threshold Valid m ⟨⟨desk.fresh, desk.stored, desk.queue ++ [request]⟩, [], book⟩ := by
  cases h with
  | asked h => exact .queued h

/-- A request in the queue is the only one, and its nonces are stored. -/
theorem queue_eq {request : RoastSignerRequest F} {requests : List (RoastSignerRequest F)}
    (h : Holds threshold Valid m ⟨desk, wire, book⟩) (hqueue : desk.queue = request :: requests) :
    ∃ nonces, requests = [] ∧ desk.fresh = false ∧ desk.stored = some nonces ∧ wire = [] ∧
      Asks threshold m nonces request book := by
  cases h with
  | queued h =>
      cases hqueue
      exact ⟨_, rfl, rfl, rfl, rfl, h⟩
  | _ => cases hqueue

/-- The member answers the request in its queue. -/
theorem reply {nonces nonces' : F.SigningNonces} {request : RoastSignerRequest F}
    {share : F.SignatureShare} (hasks : Asks threshold m nonces request book)
    (hvalid : Valid request.commitments m share) :
    Holds threshold Valid m ⟨⟨false, some nonces', []⟩,
      [.signature ⟨request.sessionId, share, F.commitment nonces'⟩], book⟩ := by
  refine .answered ⟨rfl, fun b hb => ?_⟩
  obtain ⟨hnone, hawaits⟩ := hasks.waiting b hb
  refine ⟨hnone, _, hawaits, ?_, hvalid⟩
  rw [hasks.own]
  exact Option.some_ne_none _

/-- A response on the wire is one the coordinator waits for. -/
theorem signature_waiting {response : RoastSignerResponse F}
    (h : Holds threshold Valid m ⟨desk, [.signature response], some b⟩) :
    ∃ commitments, b.awaits response.sessionId = some commitments ∧ commitments.get m ≠ none ∧
      Valid commitments m response.signatureShare := by
  cases h with
  | answered h => exact (h.waiting b rfl).2

theorem takeSignature {response : RoastSignerResponse F}
    (h : Holds threshold Valid m ⟨desk, [.signature response], some b⟩)
    (hpool : b'.pool = some response.commitment) :
    Holds threshold Valid m ⟨desk, [], some b'⟩ := by
  cases h with
  | answered h => exact .pooled (hpool.trans (congrArg some h.next))

/-- Messages that reach a coordinator that has its signature. -/
theorem lose {msg : RoastMessage F} (h : Holds threshold Valid m ⟨desk, [msg], none⟩)
    (hsign : ∀ request, msg ≠ .sign request) : Holds threshold Valid m ⟨desk, [], none⟩ := by
  cases h with
  | offered => exact .lost
  | asked => exact absurd rfl (hsign _)
  | answered => exact .lost

/-- At most one message is on the wire. -/
theorem wire_eq {msg : RoastMessage F} {before after : List (RoastMessage F)}
    (h : Holds threshold Valid m ⟨desk, wire, book⟩) (hwire : wire = before ++ msg :: after) :
    before = [] ∧ after = [] := by
  have hlen : wire.length ≤ 1 := by
    cases h <;> simp
  rw [hwire, List.length_append, List.length_cons] at hlen
  exact ⟨List.eq_nil_of_length_eq_zero (by omega), List.eq_nil_of_length_eq_zero (by omega)⟩

/-- With nothing left to do for the member, its commitment is in the pool. -/
theorem pooled_of_rest (h : Holds threshold Valid m ⟨desk, [], some b⟩)
    (hfresh : desk.fresh = false) (hqueue : desk.queue = []) : b.pool ≠ none := by
  cases h with
  | fresh => cases hfresh
  | pooled h =>
      rw [h]
      exact Option.some_ne_none _
  | queued => cases hqueue

end Holds

end Link

/-! ## What a call changes at its end -/

namespace Roast

variable {r : Roast F}

theorem desk_commit {c₀ : Identifier} (hnodup : r.coordinators.Nodup)
    (hlast : r.coordinators.getLast? = some c₀) (nonces : F.SigningNonces)
    (o : Option (RoastCoordinator F)) (c : Identifier) :
    ({ r with
      coordinator := o
      signer := (r.signer.commit nonces c₀).2
      coordinators := r.coordinators.dropLast } : Roast F).desk c
      = if c = c₀ then ⟨false, some nonces, r.signer.queue c⟩ else r.desk c := by
  have heq : r.coordinators = r.coordinators.dropLast ++ [c₀] :=
    (List.dropLast_append_getLast? c₀ hlast).symm
  rw [heq, ← List.concat_eq_append, List.nodup_concat] at hnodup
  have hmem : c ∈ r.coordinators ↔ c ∈ r.coordinators.dropLast ∨ c = c₀ := by
    rw [heq, List.mem_append, List.mem_singleton, List.dropLast_concat]
  split
  · next hc =>
    subst hc
    simp only [desk, RoastSigner.commit, StorageMap.get_insert_self, hnodup.1, decide_false]
    rfl
  · next hc =>
    simp only [desk, RoastSigner.commit, StorageMap.get_insert_of_ne _ _ hc, hmem, hc, or_false]
    rfl

/-- The first request of the queue is answered. -/
theorem desk_reply {c₀ : Identifier} {request : RoastSignerRequest F}
    {requests : List (Identifier × RoastSignerRequest F)}
    (hrequests : r.signer.requests = (c₀, request) :: requests) (stored nonces : F.SigningNonces)
    (o : Option (RoastCoordinator F)) (c : Identifier) :
    ({ r with
      coordinator := o
      signer := (({ r.signer with requests := requests }.spend c₀ stored).commit nonces c₀).2 } :
        Roast F).desk c
      = if c = c₀ then ⟨decide (c ∈ r.coordinators), some nonces, (r.signer.queue c).tail⟩
        else r.desk c := by
  split
  · next hc =>
    subst hc
    simp only [desk, RoastSigner.commit, RoastSigner.spend, StorageMap.get_insert_self,
      RoastSigner.queue, hrequests, List.filterMap_cons, if_pos, List.tail_cons]
  · next hc =>
    simp only [desk, RoastSigner.commit, RoastSigner.spend, StorageMap.get_insert_of_ne _ _ hc,
      StorageMap.get_remove_of_ne _ hc, RoastSigner.queue, hrequests, List.filterMap_cons,
      if_neg (Ne.symm hc)]

theorem desk_sign (r : Roast F) (peer : Identifier) (request : RoastSignerRequest F)
    (c : Identifier) :
    (r.onMessage peer (.sign request)).desk c
      = if c = peer then ⟨(r.desk c).fresh, (r.desk c).stored, (r.desk c).queue ++ [request]⟩
        else r.desk c := by
  split
  · next hc =>
    subst hc
    simp only [desk, onMessage, RoastSigner.sign, RoastSigner.queue, List.filterMap_append,
      List.filterMap_cons, List.filterMap_nil, if_pos]
    rfl
  · next hc =>
    simp only [desk, onMessage, RoastSigner.sign, RoastSigner.queue, List.filterMap_append,
      List.filterMap_cons, List.filterMap_nil, if_neg (Ne.symm hc), List.append_nil]
    rfl

end Roast

namespace RoastCoordinator

variable {k k' : RoastCoordinator F} {m p : Identifier}

theorem awaits_eq_some {i : Nat} {commitments : StorageMap Identifier F.SigningCommitments} :
    k.awaits m i = some commitments ↔ ∃ session, k.sessions.get i = some session ∧
      session.signatureShares.get m = none ∧ session.commitments = commitments := by
  rw [awaits, Option.bind_eq_some_iff]
  refine exists_congr fun session => and_congr_right fun _ => ?_
  rw [Option.ite_none_right_eq_some, Option.some.injEq, Option.isNone_iff_eq_none]

theorem book_onCommit_of_ne (hne : m ≠ p) (commitment : F.SigningCommitments) :
    (k.onCommit p commitment).book m = k.book m := by
  rw [onCommit]
  split
  · rfl
  · simp only [book, StorageMap.get_insert_of_ne _ _ hne, Finset.mem_insert, hne, false_or]
    rfl

theorem pool_onCommit (hnew : (k.book p).committed = false) (commitment : F.SigningCommitments) :
    ((k.onCommit p commitment).book p).pool = some commitment := by
  rw [onCommit, if_neg (of_decide_eq_false hnew)]
  exact StorageMap.get_insert_self ..

theorem book_onResponse_of_ne (hne : m ≠ p) (response : RoastSignerResponse F) :
    (k.onResponse p response).book m = k.book m := by
  rw [onResponse]
  split
  · rfl
  · next session hsession =>
    have hawaits : ∀ i, awaits { k with
        commitments := k.commitments.insert p response.commitment
        sessions := k.sessions.insert response.sessionId
          (session.onSignatureShare p response.signatureShare) } m i = k.awaits m i := by
      intro i
      rw [awaits, awaits, StorageMap.get_insert]
      split
      · next hi =>
        rw [hi, hsession, RoastSession.onSignatureShare]
        split
        · simp only [Option.bind_some, StorageMap.get_insert_of_ne _ _ hne]
        · rfl
      · rfl
    simp only [book, StorageMap.get_insert_of_ne _ _ hne]
    exact congrArg (Book.mk _ _) (funext hawaits)

theorem pool_onResponse {response : RoastSignerResponse F}
    {commitments : StorageMap Identifier F.SigningCommitments}
    (hawaits : (k.book p).awaits response.sessionId = some commitments) :
    ((k.onResponse p response).book p).pool = some response.commitment := by
  obtain ⟨session, hsession, -, -⟩ := awaits_eq_some.mp hawaits
  rw [onResponse, hsession]
  exact StorageMap.get_insert_self ..

/-- A new session is waited for; the others are where they were. -/
theorem Starts.awaits {request : RoastSignerRequest F} (h : k.Starts request k')
    (hnew : k.sessions.get k.sessionId = none) (m : Identifier) :
    k'.awaits m request.sessionId = some request.commitments ∧
      ∀ i commitments, k.awaits m i = some commitments → k'.awaits m i = some commitments := by
  have hsessions : k'.sessions = k.sessions.insert k.sessionId (.new request.commitments) := by
    rw [h.next]
  refine ⟨?_, fun i commitments hi => ?_⟩
  · rw [RoastCoordinator.awaits, hsessions, h.id, StorageMap.get_insert_self]
    rfl
  · have hne : i ≠ k.sessionId := by
      rintro rfl
      rw [RoastCoordinator.awaits, hnew] at hi
      cases hi
    rw [RoastCoordinator.awaits, hsessions, StorageMap.get_insert_of_ne _ _ hne]
    exact hi

theorem Starts.committed {request : RoastSignerRequest F} (h : k.Starts request k') :
    k'.committed = k.committed := by
  rw [h.next]

end RoastCoordinator

end Signing

end Timechain
