import Timechain.ChronicleQueues

/-!
# A chronicle that starts again

A process that is started again finds the key shares it has written. A shard
that has a commitment on the chain is joined with the share for it, and this
goes wrong in two ways.

If the share is not there, `on_finality` returns early in every call that
lists the shard, before anything else is done: no shard of this chronicle
gets a message or signs a request any more (`missing_share_stalls`).

If the share is there, the shard is taken to be committed, so it is never
told its commitment and never asks to be reported online. A chronicle that is
restarted between the commitment and its own report leaves the shard waiting
for it (`no_online_after_restart`).
-/

namespace Timechain

namespace Chronicle

variable {C : TssCrate} {f : Finality C} {shards : List ShardId} {w w' : Worker C}
  {s shardId : ShardId} {vss : C.Vss} {is : List (Input C)}

/-! ## A share is missing -/

theorem Tss.new_missing {files : Files} (hmissing : files.get (C.signingSharePath vss) = none)
    (peerId : PeerId) (members : List PeerId) (threshold : Nat) (random : C.SigningKey)
    (writable : Bool) :
    Tss.new peerId members threshold (some vss) files random writable = .error .error := by
  have hread : ∀ {T : Type} (decode : List UInt8 → Option T),
      readSigningShare files decode C.signingSharePath vss = none := by
    intro T decode
    unfold readSigningShare
    rw [hmissing]
    rfl
  unfold Tss.new
  split
  · rfl
  · split
    · rfl
    · split
      · dsimp only
        rw [hread]
      · dsimp only
        rw [hread]

/-- The chain lists the shard, and the commitment it has for it is `vss` -
whenever the chain answers. -/
structure Owes (f : Finality C) (s : ShardId) (vss : C.Vss) : Prop where
  listed : ∀ {shards}, f.getShards = some shards → s ∈ shards
  commitment : ∀ {answer}, f.getShardCommitment .join s = some answer →
    ∃ bytes, answer = some bytes ∧ C.deserialize bytes = some vss

theorem joinShard_missing (howes : Owes f s vss) (hunknown : w.tssStates.get s = none)
    (hmissing : w.files.get (C.signingSharePath vss) = none) :
    Worker.joinShard f w s = .error w := by
  unfold Worker.joinShard
  rw [if_neg (by rw [StorageMap.containsKey_iff, hunknown]; exact fun h => h rfl)]
  split
  · rfl
  · split
    · rfl
    · cases hanswer : f.getShardCommitment .join s with
      | none => rfl
      | some answer =>
          obtain ⟨bytes, rfl, hbytes⟩ := howes.commitment hanswer
          dsimp only
          rw [hbytes]
          dsimp only [Worker.insertTss]
          rw [Tss.new_missing hmissing]

/-- The file is there. -/
def HasShare (vss : C.Vss) (w : Worker C) : Prop := w.files.get (C.signingSharePath vss) ≠ none

/-- Nothing has come out of the queues, and the shard is not joined. -/
structure Stuck (s : ShardId) (w w' : Worker C) : Prop where
  messages : w'.messages = w.messages
  requests : w'.requests = w.requests
  unknown : w'.tssStates.get s = none

theorem Goes.hasShare (h : Goes f shards w w') (hshare : HasShare vss w) : HasShare vss w' := by
  obtain ⟨es, haccounts⟩ := h
  exact haccounts.files _ hshare

/-- The loop that joins shards does not get past a missing share. -/
theorem joinShards_missing (howes : Owes f s vss) (hshards : f.getShards = some shards)
    (hunknown : w.tssStates.get s = none) :
    (Outcome.each (Worker.joinShard f) shards w).Ends (HasShare vss)
      (fun w' => HasShare vss w' ∨ Stuck s w w') := by
  have hloop : (Outcome.each (Worker.joinShard f) shards w).Ends
      (fun w' => HasShare vss w' ∨ Stuck s w w' ∧ s ∉ shards)
      (fun w' => HasShare vss w' ∨ Stuck s w w') := by
    refine Outcome.Ends.each (I := fun done w' => HasShare vss w' ∨ Stuck s w w' ∧ s ∉ done)
      (fun done a _ w₁ hw₁ => ?_) (Or.inr ⟨⟨rfl, rfl, hunknown⟩, List.not_mem_nil⟩)
    -- whatever joining `a` does is about `a`
    have hjoin := joinShard_ends (f := f) (List.mem_singleton_self a) w₁
    by_cases hshare : HasShare vss w₁
    · exact hjoin.mono (fun w₂ hw₂ => Or.inl (hw₂.1.goes.hasShare hshare))
        fun w₂ hw₂ => Or.inl (hw₂ ▸ hshare)
    · obtain ⟨hstuck, hdone⟩ := hw₁.resolve_left hshare
      by_cases ha : s = a
      · subst ha
        rw [joinShard_missing howes hstuck.unknown (not_not.mp hshare)]
        exact Or.inr hstuck
      · refine hjoin.mono (fun w₂ hw₂ => Or.inr ?_) fun w₂ hw₂ => Or.inr (hw₂ ▸ hstuck)
        obtain ⟨es, hworks, -⟩ := hw₂.1
        refine ⟨⟨hworks.messages.trans hstuck.messages, hworks.requests.trans hstuck.requests, ?_⟩,
          fun hmem => ?_⟩
        · by_contra hknown
          rcases hworks.joins s hknown with hmem | hknown
          · exact ha (List.mem_singleton.mp hmem)
          · exact hknown hstuck.unknown
        · rcases List.mem_append.mp hmem with hmem | hmem
          · exact hdone hmem
          · exact ha (List.mem_singleton.mp hmem)
  refine hloop.mono (fun w' hw' => ?_) fun _ h => h
  exact hw'.resolve_right fun h => h.2 (howes.listed hshards)

theorem onFinality_missing (howes : Owes f s vss) (hunknown : w.tssStates.get s = none) :
    (w.onFinality f).Ends (HasShare vss) (fun w' => HasShare vss w' ∨ Stuck s w w') := by
  unfold Worker.onFinality
  split
  · exact Or.inr ⟨rfl, rfl, hunknown⟩
  · next shards hshards =>
      have hretained : (w.retain shards).tssStates.get s = none := by
        rw [retain_known, hunknown, ite_self]
      have hjoin := (joinShards_missing howes hshards hretained).and
        (joinShards_ends (f := f) shards w)
      refine Outcome.Ends.bind (Q := fun w' => HasShare vss w' ∧ Listed shards w')
        (hjoin.mono (fun _ h => ⟨h.1, h.2.2⟩) fun w' h => ?_) fun w₁ hw₁ => ?_
      · exact h.1.imp_right fun hstuck => ⟨hstuck.messages, hstuck.requests, hstuck.unknown⟩
      · exact (afterJoining_ends hw₁.2).mono (fun _ h => h.goes.hasShare hw₁.1)
          fun _ h => Or.inl (h.hasShare hw₁.1)

/-- What comes in is queued, and that is all. -/
structure Queued (i : Input C) (w w' : Worker C) : Prop where
  tssStates : w'.tssStates = w.tssStates
  files : w'.files = w.files
  messages : ∀ k, w'.messages.pending k = w.messages.pending k ++ Input.messagesFor k i
  requests : ∀ k, w'.requests.pending k = w.requests.pending k ++ Input.requestsFor k i

theorem step_queued {i : Input C} (hs : w.step i = some w') (hi : ∀ f, i ≠ .finality f) :
    Queued i w w' := by
  cases i with
  | finality f => exact absurd rfl (hi f)
  | message peerId msg =>
      cases hs
      exact ⟨rfl, rfl, fun k => Buckets.pending_push .., fun k => (List.append_nil _).symm⟩
  | request shardId block taskId data =>
      cases hs
      unfold Worker.onRequest
      rcases takeChannel_cases w taskId with ⟨-, heq⟩ | ⟨channel, -, heq⟩
      · rw [heq]
        exact ⟨rfl, rfl, fun k => (List.append_nil _).symm, fun k => Buckets.pending_push ..⟩
      · rw [heq]
        exact ⟨rfl, rfl, fun k => (List.append_nil _).symm, fun k => Buckets.pending_push ..⟩

/-- The share is there, or everything still waits. -/
def Stalled (s : ShardId) (vss : C.Vss) (k : BlockNumber) (w : Worker C) (is : List (Input C))
    (w' : Worker C) : Prop :=
  HasShare vss w' ∨ w'.tssStates.get s = none ∧
    w'.messages.pending k = w.messages.pending k ++ is.flatMap (Input.messagesFor k) ∧
    w'.requests.pending k = w.requests.pending k ++ is.flatMap (Input.requestsFor k)

theorem Stalled.step {w₁ w₂ : Worker C} {i : Input C} {k : BlockNumber}
    (h : Stalled s vss k w is w₁) (howes : ∀ f, i = .finality f → Owes f s vss)
    (hs : w₁.step i = some w₂) : Stalled s vss k w (is ++ [i]) w₂ := by
  unfold Stalled
  rw [List.flatMap_append, List.flatMap_append, List.flatMap_cons, List.flatMap_cons,
    List.flatMap_nil, List.flatMap_nil, List.append_nil, List.append_nil, ← List.append_assoc,
    ← List.append_assoc]
  by_cases hi : ∃ f, i = .finality f
  · obtain ⟨f, rfl⟩ := hi
    rcases h with hshare | ⟨hunknown, hmessages, hrequests⟩
    · exact Or.inl ((onFinality_goes hs).hasShare hshare)
    · have hends : (w₁.onFinality f).Ends (fun w' => HasShare vss w' ∨ Stuck s w₁ w')
          (fun w' => HasShare vss w' ∨ Stuck s w₁ w') :=
        (onFinality_missing (howes f rfl) hunknown).mono (fun _ h => Or.inl h) fun _ h => h
      refine (hends.state hs).imp_right fun hstuck => ⟨hstuck.unknown, ?_, ?_⟩
      · rw [hstuck.messages, hmessages]
        exact (List.append_nil _).symm
      · rw [hstuck.requests, hrequests]
        exact (List.append_nil _).symm
  · have hqueued := step_queued hs fun f hf => hi ⟨f, hf⟩
    refine h.imp (fun hshare => ?_) fun ⟨hunknown, hmessages, hrequests⟩ => ⟨?_, ?_, ?_⟩
    · unfold HasShare
      rw [hqueued.files]
      exact hshare
    · rw [hqueued.tssStates]
      exact hunknown
    · rw [hqueued.messages, hmessages]
    · rw [hqueued.requests, hrequests]

/-- **One missing key share stops the whole chronicle.** As long as the
chain lists a shard with a commitment for which there is no file, nothing
that comes in is handled, for no shard: at the end of the run all of it is
still waiting. -/
theorem missing_share_stalls
    (h : WorkerRun (fun _ i => ∀ f, i = .finality f → Owes f s vss) w is w')
    (hunknown : w.tssStates.get s = none)
    (hmissing : w'.files.get (C.signingSharePath vss) = none) (k : BlockNumber) :
    w'.messages.pending k = w.messages.pending k ++ is.flatMap (Input.messagesFor k) ∧
      w'.requests.pending k = w.requests.pending k ++ is.flatMap (Input.requestsFor k) := by
  have hstalled : Stalled s vss k w is w' := by
    refine h.invariant (P := fun is w' => Stalled s vss k w is w') ?_ ?_
    · exact Or.inr ⟨hunknown, (List.append_nil _).symm, (List.append_nil _).symm⟩
    · exact fun _ hw hok hs => hw.step hok hs
  exact (hstalled.resolve_left (not_not.mpr hmissing)).2

theorem exampleFinality_owes (block : BlockNumber) (status : ShardStatus) :
    Owes (exampleFinality block status (some exampleCommitment)) 0 (1 : Nat) where
  listed h := by
    cases h
    exact List.mem_singleton_self 0
  commitment h := by
    cases h
    exact ⟨exampleCommitment, rfl, rfl⟩

/-- A request for shard 4 waits for ever, since the share of shard 0 is
missing. -/
def stalledInputs : List (Input exampleCrate) :=
  [.request 4 1 9 [3], .finality (exampleFinality 1 .online (some exampleCommitment)),
    .finality (exampleFinality 2 .online (some exampleCommitment))]

theorem missing_share_stalls_example :
    let w' := Run.endState Worker.step (.new examplePeer 0 ∅) stalledInputs
    (w'.requests.pending 1).length = 1 ∧
      w'.messages.pending 1 = [] ++ stalledInputs.flatMap (Input.messagesFor 1) ∧
      w'.requests.pending 1 = [] ++ stalledInputs.flatMap (Input.requestsFor 1) := by
  have hrun : WorkerRun (fun _ i => ∀ f, i = .finality f → Owes f 0 (1 : Nat))
      (.new examplePeer 0 ∅) stalledInputs
      (Run.endState Worker.step (.new examplePeer 0 ∅) stalledInputs) := by
    refine Run.to_endState (fun _ i hi f hf => ?_) (by decide +kernel)
    subst hf
    simp only [stalledInputs, List.mem_cons, List.not_mem_nil, or_false] at hi
    rcases hi with hi | hi | hi
    · cases hi
    · cases hi
      exact exampleFinality_owes ..
    · cases hi
      exact exampleFinality_owes ..
  exact ⟨by decide +kernel, missing_share_stalls hrun rfl (by decide +kernel) 1⟩

/-! ## A share is found -/

/-- **After a restart a shard is not reported online.** Where the chain has a
commitment for the shard whenever it is asked for one on joining, the
worker never submits that the shard is online, in no run. -/
theorem no_online_after_restart {settled : C.Instance → Prop} (hsettles : Settles C settled)
    {peerId : PeerId} {network : NetworkId} {files : Files}
    (h : WorkerRun (fun _ i => ∀ f, i = .finality f → f.getShardCommitment .join s ≠ some none)
      (.new peerId network files) is w) : Entry.submitOnline s ∉ w.log := by
  suffices hboth : w.Recovered settled s ∧ Entry.submitOnline s ∉ w.log from hboth.2
  refine h.invariant (P := fun _ w => w.Recovered settled s ∧ Entry.submitOnline s ∉ w.log) ?_ ?_
  · refine ⟨fun hget => ?_, List.not_mem_nil⟩
    cases hget
  · rintro is w₁ i w₂ - ⟨hrecovered, hlog⟩ hok hs
    cases i with
    | finality f =>
        obtain ⟨es, haccounts⟩ := onFinality_goes hs
        obtain ⟨hrecovered', hes⟩ := haccounts.silent hsettles (hok f rfl) hrecovered
        rw [haccounts.log]
        exact ⟨hrecovered', fun hmem => (List.mem_append.mp hmem).elim hlog hes⟩
    | message peerId msg =>
        cases hs
        exact ⟨hrecovered, hlog⟩
    | request shardId block taskId data =>
        cases hs
        unfold Worker.onRequest
        rcases takeChannel_cases w₁ taskId with ⟨-, heq⟩ | ⟨channel, -, heq⟩
        · rw [heq]
          exact ⟨hrecovered, hlog⟩
        · rw [heq]
          refine ⟨hrecovered, fun hmem => ?_⟩
          rcases List.mem_append.mp hmem with hmem | hmem
          · exact hlog hmem
          · cases List.mem_singleton.mp hmem

theorem exampleCrate_settles : Settles exampleCrate fun _ => True where
  new _ := trivial
  committed _ := rfl
  onStart _ _ := trivial
  onSign _ _ _ := trivial
  onComplete _ _ := trivial
  onMessage _ _ _ := trivial
  nextAction _ h := by
    cases h
    refine ⟨trivial, fun share commitment key heq => ?_⟩
    cases heq

/-- The process is started again with the share of shard 0 on disk, while the
shard waits to be reported. -/
def restartedInputs : List (Input exampleCrate) :=
  [.finality (exampleFinality 5 .committed (some exampleCommitment)), .request 0 6 9 [3],
    .finality (exampleFinality 6 .committed (some exampleCommitment))]

theorem no_online_after_restart_example :
    let start := Worker.new examplePeer 0 (StorageMap.insert ∅ (Vector.replicate 32 1) [5])
    let w := Run.endState Worker.step start restartedInputs
    (w.tssStates.get 0).isSome ∧ Entry.submitOnline 0 ∉ w.log := by
  intro start w
  have hrun : WorkerRun
      (fun _ i => ∀ f, i = .finality f → f.getShardCommitment .join 0 ≠ some none)
      start restartedInputs w := by
    refine Run.to_endState (fun _ i hi f hf hnone => ?_) (by decide +kernel)
    subst hf
    simp only [restartedInputs, List.mem_cons, List.not_mem_nil, or_false] at hi
    rcases hi with hi | hi | hi
    · cases hi
      cases hnone
    · cases hi
    · cases hi
      cases hnone
  exact ⟨by decide +kernel, no_online_after_restart exampleCrate_settles hrun⟩

end Chronicle

end Timechain
