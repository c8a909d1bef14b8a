import Timechain.ChainState

/-!
# A member's key in the chronicle

How a chronicle holds its part of a shard's key (`chronicle/src/shards/tss.rs`).
A shard of several members is an instance of the `tss` crate; a shard of one
member has no need of it, and its key is an ordinary one.

Key shares outlive the process: they are written to a directory, under a
name that depends on the commitment of the shard only. A shard that has a
commitment on the chain is joined with the share found there, and cannot be
joined without. Files are never removed, so a share that was stored once is
found again (`Tss.new_kept`, `Tss.nextAction_kept`).

What the chronicle uses of the `tss` crate, of the curve and of the
serialisation is a parameter (`TssCrate`). A write to the directory may fail;
the source logs that and goes on.
-/

namespace Timechain

namespace Chronicle

/-- `tss::TssAction`: messages, commitments, proofs, shares, keys and
signatures are those of the crate. -/
inductive CrateAction (Message Vss ProofOfKnowledge SigningShare VerifyingKey Signature : Type) where
  | send (msgs : List (PeerId × Message))
  | commit (commitment : Vss) (proofOfKnowledge : ProofOfKnowledge)
  | ready (signingShare : SigningShare) (commitment : Vss) (publicKey : VerifyingKey)
  | signature (id : TaskId) (hash : Bytes 32) (signature : Signature)

/-- The `tss` crate. `Vss` is `VerifiableSecretSharingCommitment`. A panic, or
a poll that does not come to an end, is `none`. -/
structure TssCrate where
  Instance : Type
  Message : Type
  Vss : Type
  ProofOfKnowledge : Type
  SigningShare : Type
  SigningKey : Type
  VerifyingKey : Type
  Signature : Type
  isResponse : Message → Bool
  deserialize : Commitment → Option Vss
  /-- With `BoundedVec::truncate_from`. -/
  serialize : Vss → Commitment
  /-- `TssPeerId::new` accepts the bytes. -/
  isPeerId : PeerId → Bool
  new : PeerId → List PeerId → Nat → Option (SigningShare × Vss) → Option Instance
  committed : Instance → Bool
  onCommit : Instance → Vss → Instance
  onStart : Instance → TaskId → Instance
  onSign : Instance → TaskId → List UInt8 → Instance
  onComplete : Instance → TaskId → Instance
  onMessage : Instance → PeerId → Message → Instance
  nextAction : Instance → Option (Option (CrateAction Message Vss ProofOfKnowledge SigningShare
    VerifyingKey Signature) × Instance)
  /-- `VerifyingKey::to_bytes`. -/
  keyBytes : VerifyingKey → Option TssPublicKey
  /-- `SigningKey::public`. -/
  publicKey : SigningKey → VerifyingKey
  messageHash : List UInt8 → Bytes 32
  signPrehashed : SigningKey → Bytes 32 → Signature
  /-- The commitment of a shard of one member: its public key. -/
  ownCommitment : SigningKey → Vss
  constructProofOfKnowledge : PeerId → SigningKey → Vss → ProofOfKnowledge
  /-- The digest that names the file. -/
  signingSharePath : Vss → Hash
  encodeShare : SigningShare → List UInt8
  decodeShare : List UInt8 → Option SigningShare
  encodeKey : SigningKey → List UInt8
  /-- With `SigningKey::from_bytes`. -/
  decodeKey : List UInt8 → Option SigningKey

variable {C : TssCrate}

inductive TssAction (C : TssCrate) where
  | send (msgs : List (PeerId × C.Message))
  | commit (commitment : C.Vss) (proofOfKnowledge : C.ProofOfKnowledge)
  | publicKey (key : C.VerifyingKey)
  | signature (taskId : TaskId) (hash : Bytes 32) (signature : C.Signature)

inductive Tss (C : TssCrate) where
  | enabled (tss : C.Instance)
  | disabled (key : C.SigningKey) (action : Option (TssAction C)) (committed : Bool)

/-- The directory with the key shares. -/
abbrev Files : Type := StorageMap Hash (List UInt8)

def readSigningShare {T : Type} (files : Files) (decode : List UInt8 → Option T)
    (path : C.Vss → Hash) (commitment : C.Vss) : Option T :=
  (files.get (path commitment)).bind decode

def writeSigningShare (files : Files) (writable : Bool) (path : Hash) (bytes : List UInt8) : Files :=
  if writable then files.insert path bytes else files

inductive Failure where
  | error
  | panic
deriving DecidableEq

/-! ## The functions of the source -/

namespace Tss

/-- `SigningKey::random` is the argument `random`. -/
def new (peerId : PeerId) (members : List PeerId) (threshold : Nat) (commitment : Option C.Vss)
    (files : Files) (random : C.SigningKey) (writable : Bool) : Except Failure (Tss C × Files) :=
  if C.isPeerId peerId = false then .error .error
  else if members.all C.isPeerId = false then .error .error
  else if members.length = 1 then
    match commitment with
    | some commitment =>
        match readSigningShare files C.decodeKey C.signingSharePath commitment with
        | none => .error .error
        | some key => .ok (.disabled key none true, files)
    | none =>
        let commitment := C.ownCommitment random
        let proofOfKnowledge := C.constructProofOfKnowledge peerId random commitment
        .ok (.disabled random (some (.commit commitment proofOfKnowledge)) false,
          writeSigningShare files writable (C.signingSharePath commitment) (C.encodeKey random))
  else
    match commitment with
    | some commitment =>
        match readSigningShare files C.decodeShare C.signingSharePath commitment with
        | none => .error .error
        | some share =>
            match C.new peerId members threshold (some (share, commitment)) with
            | none => .error .panic
            | some tss => .ok (.enabled tss, files)
    | none =>
        match C.new peerId members threshold none with
        | none => .error .panic
        | some tss => .ok (.enabled tss, files)

def committed : Tss C → Bool
  | .enabled tss => C.committed tss
  | .disabled _ _ committed => committed

def onCommit (commitment : C.Vss) : Tss C → Tss C
  | .enabled tss => .enabled (C.onCommit tss commitment)
  | .disabled key _ _ => .disabled key (some (.publicKey (C.publicKey key))) true

def onStart (requestId : TaskId) : Tss C → Tss C
  | .enabled tss => .enabled (C.onStart tss requestId)
  | .disabled key action committed => .disabled key action committed

def onSign (requestId : TaskId) (data : List UInt8) : Tss C → Tss C
  | .enabled tss => .enabled (C.onSign tss requestId data)
  | .disabled key _ committed =>
      let hash := C.messageHash data
      .disabled key (some (.signature requestId hash (C.signPrehashed key hash))) committed

def onComplete (requestId : TaskId) : Tss C → Tss C
  | .enabled tss => .enabled (C.onComplete tss requestId)
  | .disabled key action committed => .disabled key action committed

/-- `none` is the error for a peer id that is none. -/
def onMessage (peerId : PeerId) (msg : C.Message) (t : Tss C) : Option (Tss C) :=
  if C.isPeerId peerId = false then none
  else
    match t with
    | .enabled tss => some (.enabled (C.onMessage tss peerId msg))
    | .disabled key action committed => some (.disabled key action committed)

/-- What the chronicle makes of an action of the crate. -/
def translate (files : Files) (writable : Bool) :
    CrateAction C.Message C.Vss C.ProofOfKnowledge C.SigningShare C.VerifyingKey C.Signature →
    TssAction C × Files
  | .send msgs => (.send msgs, files)
  | .commit commitment proofOfKnowledge => (.commit commitment proofOfKnowledge, files)
  | .ready share commitment key =>
      (.publicKey key,
        writeSigningShare files writable (C.signingSharePath commitment) (C.encodeShare share))
  | .signature id hash signature => (.signature id hash signature, files)

def nextAction (t : Tss C) (files : Files) (writable : Bool) :
    Option (Option (TssAction C) × Tss C × Files) :=
  match t with
  | .disabled key action committed => some (action, .disabled key none committed, files)
  | .enabled tss =>
      match C.nextAction tss with
      | none => none
      | some (none, tss) => some (none, .enabled tss, files)
      | some (some action, tss) =>
          let (action, files) := translate files writable action
          some (some action, .enabled tss, files)

end Tss

/-! ## Files stay -/

theorem writeSigningShare_kept (files : Files) (writable : Bool) (path : Hash)
    (bytes : List UInt8) {name : Hash} (h : files.get name ≠ none) :
    (writeSigningShare files writable path bytes).get name ≠ none := by
  unfold writeSigningShare
  split
  · exact StorageMap.get_insert_ne_none.mpr (Or.inr h)
  · exact h

theorem Tss.nextAction_kept {t t' : Tss C} {files files' : Files} {writable : Bool}
    {action : Option (TssAction C)} (h : t.nextAction files writable = some (action, t', files'))
    {name : Hash} (hname : files.get name ≠ none) : files'.get name ≠ none := by
  unfold Tss.nextAction at h
  split at h
  · cases h
    exact hname
  · split at h
    · cases h
    · cases h
      exact hname
    · next crateAction tss' hnext =>
        cases h
        cases crateAction with
        | ready share commitment key => exact writeSigningShare_kept _ _ _ _ hname
        | send msgs => exact hname
        | commit commitment proof => exact hname
        | signature id hash signature => exact hname

theorem Tss.new_kept {peerId : PeerId} {members : List PeerId} {threshold : Nat}
    {commitment : Option C.Vss} {files files' : Files} {random : C.SigningKey} {writable : Bool}
    {t : Tss C} (h : Tss.new peerId members threshold commitment files random writable
      = .ok (t, files')) {name : Hash} (hname : files.get name ≠ none) : files'.get name ≠ none := by
  unfold Tss.new at h
  repeat' split at h
  all_goals cases h
  all_goals first
    | exact hname
    | exact writeSigningShare_kept _ _ _ _ hname

/-! ## A key that was found -/

/-- Instances of the crate that have their key: started from a share, they do
not become ready once more. -/
structure Settles (C : TssCrate) (settled : C.Instance → Prop) : Prop where
  new : ∀ {peerId members threshold recover t},
    C.new peerId members threshold (some recover) = some t → settled t
  committed : ∀ {t}, settled t → C.committed t = true
  onStart : ∀ {t}, settled t → ∀ id, settled (C.onStart t id)
  onSign : ∀ {t}, settled t → ∀ id data, settled (C.onSign t id data)
  onComplete : ∀ {t}, settled t → ∀ id, settled (C.onComplete t id)
  onMessage : ∀ {t}, settled t → ∀ peerId msg, settled (C.onMessage t peerId msg)
  nextAction : ∀ {t t' action}, settled t → C.nextAction t = some (action, t') → settled t' ∧
    ∀ share commitment key, action ≠ some (.ready share commitment key)

/-- The key was there from the start. -/
def Tss.Recovered (settled : C.Instance → Prop) : Tss C → Prop
  | .enabled tss => settled tss
  | .disabled _ action committed => committed = true ∧
      ∀ a, action = some a → ∃ id hash signature, a = .signature id hash signature

section Recovered

variable {settled : C.Instance → Prop} {t t' : Tss C} {vss : C.Vss}

theorem Tss.Recovered.new (hsettles : Settles C settled) {peerId : PeerId} {members : List PeerId}
    {threshold : Nat} {files files' : Files} {random : C.SigningKey} {writable : Bool}
    (h : Tss.new peerId members threshold (some vss) files random writable = .ok (t, files')) :
    t.Recovered settled := by
  unfold Tss.new at h
  split at h
  · cases h
  · split at h
    · cases h
    · split at h
      · dsimp only at h
        split at h
        · cases h
        · cases h
          refine ⟨rfl, fun a ha => ?_⟩
          cases ha
      · dsimp only at h
        split at h
        · cases h
        · split at h
          · cases h
          · next tss hnew =>
              cases h
              exact hsettles.new hnew

theorem Tss.Recovered.committed (hsettles : Settles C settled) (h : t.Recovered settled) :
    t.committed = true := by
  cases t with
  | enabled tss => exact hsettles.committed h
  | disabled key action committed => exact h.1

theorem Tss.Recovered.onSign (hsettles : Settles C settled) (h : t.Recovered settled)
    (id : TaskId) (data : List UInt8) : (t.onSign id data).Recovered settled := by
  cases t with
  | enabled tss => exact hsettles.onSign h id data
  | disabled key action committed =>
      refine ⟨h.1, fun a ha => ?_⟩
      cases ha
      exact ⟨_, _, _, rfl⟩

theorem Tss.Recovered.onStart (hsettles : Settles C settled) (h : t.Recovered settled)
    (id : TaskId) : (t.onStart id).Recovered settled := by
  cases t with
  | enabled tss => exact hsettles.onStart h id
  | disabled key action committed => exact h

theorem Tss.Recovered.onComplete (hsettles : Settles C settled) (h : t.Recovered settled)
    (id : TaskId) : (t.onComplete id).Recovered settled := by
  cases t with
  | enabled tss => exact hsettles.onComplete h id
  | disabled key action committed => exact h

theorem Tss.Recovered.onMessage (hsettles : Settles C settled) (h : t.Recovered settled)
    {peerId : PeerId} {msg : C.Message} (ht' : t.onMessage peerId msg = some t') :
    t'.Recovered settled := by
  unfold Tss.onMessage at ht'
  split at ht'
  · cases ht'
  · cases t with
    | enabled tss =>
        cases ht'
        exact hsettles.onMessage h peerId msg
    | disabled key action committed =>
        cases ht'
        exact h

theorem Tss.Recovered.nextAction (hsettles : Settles C settled) (h : t.Recovered settled)
    {files files' : Files} {writable : Bool} {action : Option (TssAction C)}
    (hnext : t.nextAction files writable = some (action, t', files')) :
    t'.Recovered settled ∧ ∀ key, action ≠ some (.publicKey key) := by
  cases t with
  | disabled key pending committed =>
      cases hnext
      refine ⟨⟨h.1, fun a ha => ?_⟩, fun key hkey => ?_⟩
      · cases ha
      · obtain ⟨id, hash, signature, heq⟩ := h.2 _ hkey
        cases heq
  | enabled tss =>
      unfold Tss.nextAction at hnext
      dsimp only at hnext
      split at hnext
      · cases hnext
      · next tss' hcrate =>
          cases hnext
          refine ⟨(hsettles.nextAction h hcrate).1, fun key hkey => ?_⟩
          cases hkey
      · next crateAction tss' hcrate =>
          obtain ⟨hsettled, hready⟩ := hsettles.nextAction h hcrate
          cases hnext
          refine ⟨hsettled, fun key hkey => ?_⟩
          cases crateAction with
          | ready share commitment key => exact hready share commitment key rfl
          | send msgs => cases hkey
          | commit commitment proof => cases hkey
          | signature id hash signature => cases hkey

end Recovered

end Chronicle

end Timechain
