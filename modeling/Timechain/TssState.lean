import Timechain.TssRoast

/-!
# A TSS instance

One member of a shard that holds its key (`Tss` of `tss/src/lib.rs` in
state `Roast`): a `Roast` for each session id, started by `on_start` and
`on_sign` and dropped by `on_complete`. A poll goes through the sessions
in the order of their ids until one of them has something for another
member, or a signature; what a session sends to its own member is
delivered on the spot.

Peers are identified with their FROST identifiers (`to_frost`). A poll
gets the nonces it may draw as a list, one for each call of
`Roast.nextAction`; it has no result (`none`) if these run out.
-/

namespace Timechain

namespace Signing

inductive TssMessage (F : Frost) where
  | dkg
  | roast (id : Nat) (msg : RoastMessage F)

inductive TssAction (F : Frost) where
  | send (msgs : List (Identifier × TssMessage F))
  | signature (id : Nat) (hash : Bytes 32) (signature : F.Signature)

structure Tss (F : Frost) where
  frostId : Identifier
  /-- The keys of `frost_to_peer`, in ascending order. -/
  members : List Identifier
  threshold : Nat
  coordinators : List Identifier
  keyPackage : F.KeyPackage
  publicKeyPackage : F.PublicKeyPackage
  signingSessions : StorageMap Nat (Roast F)

variable {F : Frost}

/-- What an action asks for: messages to members, or nothing more. -/
def RoastAction.outgoing : RoastAction F →
    (List Identifier × RoastMessage F) ⊕ (Bytes 32 × F.Signature)
  | .send peer msg => .inl ([peer], msg)
  | .sendMany peers msg => .inl (peers, msg)
  | .complete hash signature => .inr (hash, signature)

/-- How a poll ends: every session waits, there is an action, or a session
panicked. -/
inductive Poll (F : Frost) where
  | idle
  | act (action : TssAction F)
  | panic

def Poll.isIdle {F : Frost} : Poll F → Bool
  | .idle => true
  | _ => false

/-- The members other than `self`. -/
def others (self : Identifier) (peers : List Identifier) : List Identifier :=
  peers.filter (· != self)

/-- `send_to_self`. -/
def Roast.toSelf (r : Roast F) (self : Identifier) (peers : List Identifier)
    (msg : RoastMessage F) : Roast F :=
  if (others self peers).length = peers.length then r else r.onMessage self msg

/-- The `while` loop over the actions of one session. -/
def pollSession (self : Identifier) (id : Nat) :
    List F.SigningNonces → Roast F → Option (Poll F × Roast F × List F.SigningNonces)
  | [], _ => none
  | nonces :: supply, r =>
      match r.nextAction nonces with
      | .error r => some (.panic, r, supply)
      | .ok (none, r) => some (.idle, r, supply)
      | .ok (some action, r) =>
          match action.outgoing with
          | .inr (hash, signature) => some (.act (.signature id hash signature), r, supply)
          | .inl (peers, msg) =>
              let r := r.toSelf self peers msg
              if others self peers = [] then pollSession self id supply r
              else
                some (.act (.send ((others self peers).map fun peer => (peer, .roast id msg))),
                  r, supply)

namespace Tss

def new (frostId : Identifier) (members : List Identifier) (threshold : Nat)
    (keyPackage : F.KeyPackage) (publicKeyPackage : F.PublicKeyPackage) : Tss F where
  frostId := frostId
  members := members
  threshold := threshold
  coordinators := members.take (members.length - threshold + 1)
  keyPackage := keyPackage
  publicKeyPackage := publicKeyPackage
  signingSessions := ∅

def setSession (t : Tss F) (id : Nat) (r : Roast F) : Tss F :=
  { t with signingSessions := t.signingSessions.insert id r }

def onMessage (t : Tss F) (peer : Identifier) (msg : TssMessage F) : Tss F :=
  if t.frostId = peer then t
  else if peer ∉ t.members then t
  else
    match msg with
    | .dkg => t
    | .roast id msg =>
        match t.signingSessions.get id with
        | none => t
        | some session => t.setSession id (session.onMessage peer msg)

/-- A session as `get_or_insert_session` creates it. -/
def newSession (t : Tss F) : Roast F :=
  .new t.frostId t.threshold t.keyPackage t.publicKeyPackage t.coordinators

def session (t : Tss F) (id : Nat) : Roast F := t.signingSessions.getD id t.newSession

def onStart (t : Tss F) (id : Nat) : Tss F := t.setSession id (t.session id)

def onSign (t : Tss F) (id : Nat) (data : List UInt8) : Tss F :=
  t.setSession id ((t.session id).setData data)

def onComplete (t : Tss F) (id : Nat) : Tss F :=
  { t with signingSessions := t.signingSessions.remove id }

/-- The `for` loop over the session ids. -/
def pollSessions : List Nat → List F.SigningNonces → Tss F → Option (Poll F × Tss F)
  | [], _, t => some (.idle, t)
  | id :: ids, supply, t =>
      match t.signingSessions.get id with
      -- `unwrap`
      | none => some (.panic, t)
      | some r =>
          match pollSession t.frostId id supply r with
          | none => none
          | some (.idle, r, supply) => pollSessions ids supply (t.setSession id r)
          | some (poll, r, _) => some (poll, t.setSession id r)

def nextAction (t : Tss F) (supply : List F.SigningNonces) : Option (Poll F × Tss F) :=
  pollSessions ((t.signingSessions.iter id).map Prod.fst) supply t

theorem nextAction_idle {t : Tss F} {supply : List F.SigningNonces}
    (h : (t.nextAction supply).any (fun e => e.1.isIdle) = true) :
    ∃ t', t.nextAction supply = some (.idle, t') := by
  obtain ⟨⟨poll, t'⟩, heq, hidle⟩ := Option.any_eq_true .. |>.mp h
  cases poll with
  | idle => exact ⟨t', heq⟩
  | act => cases hidle
  | panic => cases hidle

@[simp] theorem setSession_get (t : Tss F) (id : Nat) (r : Roast F) (id' : Nat) :
    (t.setSession id r).signingSessions.get id' =
      if id' = id then some r else t.signingSessions.get id' :=
  StorageMap.get_insert ..

theorem session_setSession (t : Tss F) (id : Nat) (r : Roast F) (id' : Nat) :
    (t.setSession id r).session id' = if id' = id then r else t.session id' := by
  rw [session, session, StorageMap.getD, StorageMap.getD, setSession_get]
  split <;> rfl

theorem session_eq_of_get {t : Tss F} {id : Nat} {r : Roast F}
    (h : t.signingSessions.get id = some r) : t.session id = r := by
  rw [session, StorageMap.getD, h]
  rfl

end Tss

/-! ## What a poll does -/

/-- The loop over one session: actions for the member alone are carried out
and the loop goes on. -/
inductive Polls (self : Identifier) (id : Nat) : Roast F → Poll F → Roast F → Prop
  | panic {r r' : Roast F} {nonces : F.SigningNonces} : r.Panics nonces r' →
      Polls self id r .panic r'
  | idle {r r' : Roast F} {nonces : F.SigningNonces} : r.Acts nonces none r' →
      Polls self id r .idle r'
  | complete {r r' : Roast F} {nonces : F.SigningNonces} {action : RoastAction F}
      {hash : Bytes 32} {signature : F.Signature} : r.Acts nonces (some action) r' →
      action.outgoing = .inr (hash, signature) →
      Polls self id r (.act (.signature id hash signature)) r'
  | send {r r' : Roast F} {nonces : F.SigningNonces} {action : RoastAction F}
      {peers : List Identifier} {msg : RoastMessage F} : r.Acts nonces (some action) r' →
      action.outgoing = .inl (peers, msg) → others self peers ≠ [] →
      Polls self id r (.act (.send ((others self peers).map fun peer => (peer, .roast id msg))))
        (r'.toSelf self peers msg)
  | again {r r' r'' : Roast F} {nonces : F.SigningNonces} {action : RoastAction F}
      {peers : List Identifier} {msg : RoastMessage F} {poll : Poll F} :
      r.Acts nonces (some action) r' → action.outgoing = .inl (peers, msg) →
      others self peers = [] → Polls self id (r'.toSelf self peers msg) poll r'' →
      Polls self id r poll r''

theorem pollSession_polls {self : Identifier} {id : Nat} {supply supply' : List F.SigningNonces}
    {r r' : Roast F} {poll : Poll F} (h : pollSession self id supply r = some (poll, r', supply')) :
    Polls self id r poll r' := by
  induction supply generalizing r with
  | nil => cases h
  | cons nonces supply ih =>
      rw [pollSession] at h
      split at h
      · next r₁ hact =>
        cases h
        exact .panic (Roast.nextAction_error hact)
      · next r₁ hact =>
        cases h
        exact .idle (Roast.nextAction_ok hact)
      · next action r₁ hact =>
        have hacts := Roast.nextAction_ok hact
        split at h
        · next hash signature hout =>
          cases h
          exact .complete hacts hout
        · next peers msg hout =>
          dsimp only at h
          split at h
          · next hnil => exact .again hacts hout hnil (ih h)
          · next hne =>
            cases h
            exact .send hacts hout hne

namespace Tss

/-- The loop over the sessions: all before the last one wait. -/
inductive Visits : List Nat → Tss F → Poll F → Tss F → Prop
  | done (t : Tss F) : Visits [] t .idle t
  | missing {t : Tss F} {id : Nat} {ids : List Nat} : t.signingSessions.get id = none →
      Visits (id :: ids) t .panic t
  | next {t t' : Tss F} {id : Nat} {ids : List Nat} {r r' : Roast F} {poll : Poll F} :
      t.signingSessions.get id = some r → Polls t.frostId id r .idle r' →
      Visits ids (t.setSession id r') poll t' → Visits (id :: ids) t poll t'
  | stop {t : Tss F} {id : Nat} {ids : List Nat} {r r' : Roast F} {poll : Poll F} :
      t.signingSessions.get id = some r → Polls t.frostId id r poll r' → poll ≠ .idle →
      Visits (id :: ids) t poll (t.setSession id r')

theorem pollSessions_visits {ids : List Nat} {supply : List F.SigningNonces} {t t' : Tss F}
    {poll : Poll F} (h : pollSessions ids supply t = some (poll, t')) : Visits ids t poll t' := by
  induction ids generalizing supply t with
  | nil =>
      cases h
      exact .done _
  | cons id ids ih =>
      rw [pollSessions] at h
      split at h
      · next hget =>
        cases h
        exact .missing hget
      · next r hget =>
        split at h
        · cases h
        · next r' supply' hpoll => exact .next hget (pollSession_polls hpoll) (ih h)
        · next poll' r' supply' hidle hpoll =>
          cases h
          exact .stop hget (pollSession_polls hpoll) hidle

end Tss

end Signing

end Timechain
