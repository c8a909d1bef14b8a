import Timechain.Run
import Timechain.TssState

/-!
# A shard signing

The members of a shard and the messages between them. Messages in flight
are delivered in any order, each once; polls and the calls of the
chronicle come in between as they like (`Net.step`).

A session id works for one message. `on_sign` on a session that has
completed only replaces the data: the coordinators are gone, so nobody
asks for shares of the new data and no signature over it is ever output
(`second_data_signed_iff`). The chronicle signs all chunks of a read task
under the id of the task, and calls `on_complete` after the last one.
-/

namespace Timechain

namespace Signing

variable {F : Frost}

/-- The members of a shard and the shares of its key. FROST counts signers
with a `u16`. -/
structure Shard (F : Frost) where
  members : List Identifier
  threshold : Nat
  keyPackage : Identifier → F.KeyPackage
  publicKeyPackage : F.PublicKeyPackage
  sorted : members.Pairwise (· < ·)
  pos : 1 ≤ threshold
  le : threshold ≤ members.length
  size : members.length < 2 ^ 16

namespace Shard

def tss (shard : Shard F) (m : Identifier) : Tss F :=
  .new m shard.members shard.threshold (shard.keyPackage m) shard.publicKeyPackage

/-- The members that collect signatures. -/
def coordinators (shard : Shard F) : List Identifier :=
  shard.members.take (shard.members.length - shard.threshold + 1)

theorem coordinators_ne_nil (shard : Shard F) : shard.coordinators ≠ [] := by
  have hle := shard.le
  have hpos := shard.pos
  rw [coordinators, ← List.length_pos_iff, List.length_take]
  omega

end Shard

/-- A message on its way. -/
structure Wire (F : Frost) where
  src : Identifier
  dst : Identifier
  msg : TssMessage F

/-- A signature a member has output: member, session id, hash, signature. -/
abbrev Output (F : Frost) : Type := Identifier × Nat × Bytes 32 × F.Signature

structure Net (F : Frost) where
  tss : Identifier → Tss F
  flight : List (Wire F)
  /-- History: the signatures output so far. -/
  outputs : List (Output F)

inductive NetInput (F : Frost) where
  | onStart (m : Identifier) (id : Nat)
  | onSign (m : Identifier) (id : Nat) (data : List UInt8)
  | onComplete (m : Identifier) (id : Nat)
  | poll (m : Identifier) (supply : List F.SigningNonces)
  /-- Deliver the message at position `k`. -/
  | deliver (k : Nat)

namespace Net

def start (shard : Shard F) : Net F := ⟨shard.tss, [], []⟩

def set (s : Net F) (m : Identifier) (t : Tss F) : Net F :=
  { s with tss := Function.update s.tss m t }

def step (s : Net F) : NetInput F → Option (Net F)
  | .onStart m id => some (s.set m ((s.tss m).onStart id))
  | .onSign m id data => some (s.set m ((s.tss m).onSign id data))
  | .onComplete m id => some (s.set m ((s.tss m).onComplete id))
  | .poll m supply =>
      match (s.tss m).nextAction supply with
      | none => none
      | some (.panic, _) => none
      | some (.idle, t) => some (s.set m t)
      | some (.act (.send msgs), t) =>
          some { s.set m t with flight := s.flight ++ msgs.map fun e => ⟨m, e.1, e.2⟩ }
      | some (.act (.signature id hash signature), t) =>
          some { s.set m t with outputs := s.outputs ++ [(m, id, hash, signature)] }
  | .deliver k =>
      match s.flight[k]? with
      | none => none
      | some w =>
          some { s.set w.dst ((s.tss w.dst).onMessage w.src w.msg) with
            flight := s.flight.eraseIdx k }

/-- No message is in flight and no member has anything to do. -/
def Quiet (s : Net F) (shard : Shard F) : Prop :=
  s.flight = [] ∧ ∀ m ∈ shard.members, ∃ supply t, (s.tss m).nextAction supply = some (.idle, t)

end Net

/-! ## A session under polls -/

/-- What happens to a session that is not dropped: its data stay, and a
coordinator that has completed does not come back. -/
structure Roast.Lasts (r r' : Roast F) : Prop where
  data : r'.signer.data = r.signer.data
  completed : r.coordinator = none → r'.coordinator = none

theorem Roast.Lasts.rfl {r : Roast F} : r.Lasts r := ⟨.refl _, id⟩

theorem Roast.Lasts.trans {r r' r'' : Roast F} (h : r.Lasts r') (h' : r'.Lasts r'') : r.Lasts r'' :=
  ⟨h'.data.trans h.data, fun hnone => h'.completed (h.completed hnone)⟩

theorem Roast.onMessage_lasts (r : Roast F) (peer : Identifier) (msg : RoastMessage F) :
    r.Lasts (r.onMessage peer msg) := by
  cases msg with
  | commit commitment => exact ⟨rfl, fun h => Option.map_eq_none_iff.mpr h⟩
  | sign request => exact ⟨rfl, id⟩
  | signature response => exact ⟨rfl, fun h => Option.map_eq_none_iff.mpr h⟩

theorem Roast.toSelf_lasts (r : Roast F) (me : Identifier) (peers : List Identifier)
    (msg : RoastMessage F) : r.Lasts (r.toSelf me peers msg) := by
  rw [Roast.toSelf]
  split
  · exact .rfl
  · exact r.onMessage_lasts me msg

theorem Roast.Acts.lasts {r r' : Roast F} {nonces : F.SigningNonces} {a : Option (RoastAction F)}
    (h : r.Acts nonces a r') : r.Lasts r' := by
  refine ⟨h.frame.data, fun hnone => ?_⟩
  have hwaits : ∀ {o}, r.Waits o → o = none := by
    intro o hwaits
    cases hwaits with
    | signer _ => rfl
    | coordinator hk _ _ => cases hnone.symm.trans hk
  cases h with
  | complete => rfl
  | start hk _ _ => cases hnone.symm.trans hk
  | commit hw _ => exact hwaits hw
  | reply hw _ _ => exact hwaits hw
  | idle hw _ _ => exact hwaits hw

/-- A signature is output once, over the data of the session. -/
structure Roast.Signs (r r' : Roast F) (hash : Bytes 32) : Prop where
  before : r.coordinator ≠ none
  after : r'.coordinator = none
  hash : ∃ data, r.signer.data = some data ∧ hash = F.messageHash data

theorem Roast.Signs.of_lasts {r r' r'' : Roast F} {hash : Bytes 32} (h : r.Lasts r')
    (hsigns : r'.Signs r'' hash) : r.Signs r'' hash where
  before hnone := hsigns.before (h.completed hnone)
  after := hsigns.after
  hash := by
    obtain ⟨data, hdata, hhash⟩ := hsigns.hash
    exact ⟨data, h.data ▸ hdata, hhash⟩

theorem Polls.lasts {me : Identifier} {id : Nat} {r r' : Roast F} {poll : Poll F}
    (h : Polls me id r poll r') (hpanic : poll ≠ .panic) : r.Lasts r' := by
  induction h with
  | panic => exact absurd rfl hpanic
  | idle hacts => exact hacts.lasts
  | complete hacts _ => exact hacts.lasts
  | send hacts _ _ => exact hacts.lasts.trans (Roast.toSelf_lasts ..)
  | again hacts _ _ _ ih => exact (hacts.lasts.trans (Roast.toSelf_lasts ..)).trans (ih hpanic)

theorem Polls.signs {me : Identifier} {id id' : Nat} {r r' : Roast F} {poll : Poll F}
    {hash : Bytes 32} {signature : F.Signature} (h : Polls me id r poll r')
    (hpoll : poll = .act (.signature id' hash signature)) : id' = id ∧ r.Signs r' hash := by
  induction h with
  | panic => cases hpoll
  | idle => cases hpoll
  | complete hacts hout =>
      cases hpoll
      refine ⟨rfl, ?_⟩
      cases hacts with
      | complete hk hdata hs hsig =>
          obtain ⟨rfl, rfl⟩ := Prod.mk.injEq .. |>.mp (Sum.inr.inj hout)
          exact ⟨hk ▸ Option.some_ne_none _, rfl, _, hdata, rfl⟩
      | start => cases hout
      | commit => cases hout
      | reply => cases hout
  | send => cases hpoll
  | again hacts _ _ _ ih =>
      obtain ⟨hid, hsigns⟩ := ih hpoll
      exact ⟨hid, hsigns.of_lasts (hacts.lasts.trans (Roast.toSelf_lasts ..))⟩

namespace Tss

/-- All sessions of an instance last. -/
def Lasts (t t' : Tss F) : Prop := ∀ id, (t.session id).Lasts (t'.session id)

theorem Lasts.rfl {t : Tss F} : t.Lasts t := fun _ => .rfl

theorem Lasts.trans {t t' t'' : Tss F} (h : t.Lasts t') (h' : t'.Lasts t'') : t.Lasts t'' :=
  fun id => (h id).trans (h' id)

theorem setSession_lasts {t : Tss F} {id : Nat} {r : Roast F} (h : (t.session id).Lasts r) :
    t.Lasts (t.setSession id r) := by
  intro id'
  rw [session_setSession]
  split
  · next heq => exact heq ▸ h
  · exact .rfl

theorem Visits.lasts {ids : List Nat} {t t' : Tss F} {poll : Poll F} (h : Visits ids t poll t')
    (hpanic : poll ≠ .panic) : t.Lasts t' := by
  induction h with
  | done => exact .rfl
  | missing => exact absurd rfl hpanic
  | next hget hpolls _ ih =>
      refine (setSession_lasts ?_).trans (ih hpanic)
      rw [session_eq_of_get hget]
      exact hpolls.lasts (by simp)
  | stop hget hpolls _ =>
      refine setSession_lasts ?_
      rw [session_eq_of_get hget]
      exact hpolls.lasts hpanic

theorem Visits.signs {ids : List Nat} {t t' : Tss F} {poll : Poll F} {id : Nat} {hash : Bytes 32}
    {signature : F.Signature} (h : Visits ids t poll t')
    (hpoll : poll = .act (.signature id hash signature)) :
    (t.session id).Signs (t'.session id) hash := by
  induction h with
  | done => cases hpoll
  | missing => cases hpoll
  | next hget hpolls _ ih =>
      refine (ih hpoll).of_lasts (setSession_lasts ?_ id)
      rw [session_eq_of_get hget]
      exact hpolls.lasts (by simp)
  | stop hget hpolls _ =>
      obtain ⟨rfl, hsigns⟩ := hpolls.signs hpoll
      rw [session_setSession, if_pos rfl, session_eq_of_get hget]
      exact hsigns

theorem onMessage_lasts (t : Tss F) (peer : Identifier) (msg : TssMessage F) :
    t.Lasts (t.onMessage peer msg) := by
  unfold onMessage
  split
  · exact .rfl
  · split
    · exact .rfl
    · split
      · exact .rfl
      · next id msg =>
        split
        · exact .rfl
        · next r hget =>
          refine setSession_lasts ?_
          rw [session_eq_of_get hget]
          exact r.onMessage_lasts peer msg

end Tss

/-! ## A session id over a run -/

namespace Net

/-- The session of member `m` with this id. -/
def session (s : Net F) (id : Nat) (m : Identifier) : Roast F := (s.tss m).session id

theorem set_tss (s : Net F) (m : Identifier) (t : Tss F) (m' : Identifier) :
    (s.set m t).tss m' = if m' = m then t else s.tss m' :=
  Function.update_apply ..

/-- What an input does to the sessions with a given id. -/
structure Moves (s s' : Net F) (input : NetInput F) (id : Nat) : Prop where
  completed : ∀ m, (s.session id m).coordinator = none → (s'.session id m).coordinator = none
  data : ∀ m, (s'.session id m).signer.data = (s.session id m).signer.data ∨
    ∃ data, input = .onSign m id data ∧ (s'.session id m).signer.data = some data
  outputs : s'.outputs = s.outputs ∨ ∃ m id' hash signature,
    s'.outputs = s.outputs ++ [(m, id', hash, signature)] ∧
      (id' = id → (s.session id m).Signs (s'.session id m) hash)

theorem Moves.of_lasts {s s' : Net F} {input : NetInput F} {m : Identifier} {t : Tss F}
    (htss : s'.tss = (s.set m t).tss) {id : Nat} (h : ((s.tss m).session id).Lasts (t.session id))
    (houtputs : s'.outputs = s.outputs ∨ ∃ m id' hash signature,
      s'.outputs = s.outputs ++ [(m, id', hash, signature)] ∧
        (id' = id → (s.session id m).Signs (s'.session id m) hash)) : Moves s s' input id := by
  have hlasts : ∀ m', (s.session id m').Lasts (s'.session id m') := by
    intro m'
    rw [session, session, htss, set_tss]
    split
    · next heq => exact heq ▸ h
    · exact .rfl
  exact ⟨fun m' => (hlasts m').completed, fun m' => .inl (hlasts m').data, houtputs⟩

theorem step_moves {s s' : Net F} {input : NetInput F} (h : s.step input = some s') {id : Nat}
    (hkeep : ∀ m, input ≠ .onComplete m id) : Moves s s' input id := by
  cases input with
  | onStart m id' =>
      cases h
      have hlasts : (s.tss m).Lasts ((s.tss m).onStart id') := Tss.setSession_lasts .rfl
      exact .of_lasts (by rfl) (hlasts id) (.inl (by rfl))
  | onSign m id' data =>
      cases h
      have hsession : ∀ m', (s.set m ((s.tss m).onSign id' data)).session id m' =
          if m' = m ∧ id = id' then (s.session id m').setData data else s.session id m' := by
        intro m'
        rw [session, set_tss]
        by_cases hm : m' = m
        · subst hm
          rw [if_pos rfl, Tss.onSign, Tss.session_setSession]
          by_cases hid : id = id'
          · simp [hid, session]
          · simp [hid, session]
        · simp [hm, session]
      refine ⟨fun m' hnone => ?_, fun m' => ?_, .inl rfl⟩
      · rw [hsession]
        split <;> exact hnone
      · rw [hsession]
        split
        · next heq =>
          obtain ⟨rfl, rfl⟩ := heq
          exact .inr ⟨data, rfl, rfl⟩
        · exact .inl rfl
  | onComplete m id' =>
      cases h
      have hne : id ≠ id' := fun heq => hkeep m (heq ▸ rfl)
      have hsession : ((s.tss m).onComplete id').session id = (s.tss m).session id := by
        rw [Tss.session, Tss.session, StorageMap.getD, StorageMap.getD, Tss.onComplete,
          StorageMap.get_remove_of_ne _ hne]
        rfl
      refine .of_lasts (t := (s.tss m).onComplete id') (by rfl) ?_ (.inl (by rfl))
      rw [hsession]
      exact .rfl
  | poll m supply =>
      dsimp only [step] at h
      split at h
      · cases h
      · cases h
      · next t hnext =>
        cases h
        have hvisits := Tss.pollSessions_visits hnext
        have hlasts := hvisits.lasts (by simp)
        exact .of_lasts (by rfl) (hlasts id) (.inl (by rfl))
      · next msgs t hnext =>
        cases h
        have hvisits := Tss.pollSessions_visits hnext
        have hlasts := hvisits.lasts (by simp)
        exact .of_lasts (by rfl) (hlasts id) (.inl (by rfl))
      · next id' hash signature t hnext =>
        cases h
        have hvisits := Tss.pollSessions_visits hnext
        have hlasts := hvisits.lasts (by simp)
        refine .of_lasts (by rfl) (hlasts id)
          (.inr ⟨m, id', hash, signature, by rfl, ?_⟩)
        rintro rfl
        change ((s.tss m).session id').Signs (((s.set m t).tss m).session id') hash
        rw [set_tss, if_pos rfl]
        exact hvisits.signs rfl
  | deliver k =>
      dsimp only [step] at h
      split at h
      · cases h
      · next w hw =>
        cases h
        have hlasts := (s.tss w.dst).onMessage_lasts w.src w.msg
        exact .of_lasts (by rfl) (hlasts id) (.inl (by rfl))

/-- Under `id` only `data` is signed, and its sessions are not dropped. -/
def SignsOnly (id : Nat) (data : List UInt8) : Net F → NetInput F → Prop
  | _, .onSign _ id' data' => id' = id → data' = data
  | _, .onComplete _ id' => id' ≠ id
  | _, _ => True

theorem SignsOnly.keeps {id : Nat} {data : List UInt8} {s : Net F} {input : NetInput F}
    (h : SignsOnly id data s input) (m : Identifier) : input ≠ .onComplete m id := by
  rintro rfl
  exact h rfl

/-- While `data` is signed under `id`: who has output a signature is no
coordinator any more. -/
structure First (shard : Shard F) (id : Nat) (data : List UInt8) (s : Net F) : Prop where
  own : ∀ m, (s.session id m).signer.data = none ∨ (s.session id m).signer.data = some data
  signer : ∀ m ∉ shard.coordinators, (s.session id m).coordinator = none
  outputs : ∀ m hash signature, (m, id, hash, signature) ∈ s.outputs →
    hash = F.messageHash data ∧ (s.session id m).coordinator = none

theorem run_first {shard : Shard F} {id : Nat} {data : List UInt8} {inputs : List (NetInput F)}
    {s : Net F} (hrun : Run Net.step (SignsOnly id data) (.start shard) inputs s) :
    First shard id data s := by
  refine hrun.invariant (P := fun _ s => First shard id data s) ?_ ?_
  · refine ⟨fun _ => .inl rfl, fun m hm => ?_, fun m hash signature hmem => ?_⟩
    · exact if_neg hm
    · cases hmem
  · intro inputs s input s' _ h hok hstep
    have hmoves := step_moves hstep hok.keeps
    refine ⟨fun m => ?_, fun m hm => hmoves.completed m (h.signer m hm), ?_⟩
    · rcases hmoves.data m with heq | ⟨data', rfl, heq⟩
      · rw [heq]
        exact h.own m
      · rw [heq]
        exact .inr (congrArg some (hok rfl))
    · intro m hash signature hmem
      have hold : (m, id, hash, signature) ∈ s.outputs →
          hash = F.messageHash data ∧ (s'.session id m).coordinator = none := by
        intro hmem
        obtain ⟨hhash, hnone⟩ := h.outputs m hash signature hmem
        exact ⟨hhash, hmoves.completed m hnone⟩
      rcases hmoves.outputs with heq | ⟨m', id', hash', signature', heq, hsigns⟩
      · exact hold (heq ▸ hmem)
      · rw [heq, List.mem_append, List.mem_singleton] at hmem
        rcases hmem with hmem | hnew
        · exact hold hmem
        · obtain ⟨rfl, rfl, rfl, rfl⟩ := hnew
          obtain ⟨-, hafter, data', hdata', rfl⟩ := hsigns rfl
          refine ⟨?_, hafter⟩
          rcases h.own m with hnone | hsome
          · cases hnone.symm.trans hdata'
          · rw [Option.some.inj (hsome.symm.trans hdata')]

/-- Without coordinators nothing is output. -/
theorem run_second {id : Nat} {data : List UInt8} {inputs : List (NetInput F)} {s s' : Net F}
    (hnone : ∀ m, (s.session id m).coordinator = none)
    (hrun : Run Net.step (SignsOnly id data) s inputs s') :
    ∀ m hash signature, (m, id, hash, signature) ∈ s'.outputs ↔
      (m, id, hash, signature) ∈ s.outputs := by
  have hkept : (∀ m, (s'.session id m).coordinator = none) ∧ ∀ m hash signature,
      (m, id, hash, signature) ∈ s'.outputs ↔ (m, id, hash, signature) ∈ s.outputs := by
    refine hrun.invariant (P := fun _ s' => (∀ m, (s'.session id m).coordinator = none) ∧
      ∀ m hash signature,
        (m, id, hash, signature) ∈ s'.outputs ↔ (m, id, hash, signature) ∈ s.outputs) ?_ ?_
    · exact ⟨hnone, fun _ _ _ => Iff.rfl⟩
    · rintro inputs s₁ input s₂ - ⟨hgone, hsame⟩ hok hstep
      have hmoves := step_moves hstep hok.keeps
      refine ⟨fun m => hmoves.completed m (hgone m), fun m hash signature => ?_⟩
      rw [← hsame]
      rcases hmoves.outputs with heq | ⟨m', id', hash', signature', heq, hsigns⟩
      · rw [heq]
      · rw [heq, List.mem_append, List.mem_singleton]
        refine or_iff_left ?_
        rintro ⟨rfl, rfl, rfl, rfl⟩
        exact (hsigns rfl).before (hgone m)
  exact hkept.2

end Net

/-- **A session id signs one message.** Once all coordinators have output
their signatures over `data₁`, `on_sign` with `data₂` leads to a signature
over it in no later state - unless the hashes are the same, and the
signatures that are there already count. -/
theorem second_data_signed_iff {shard : Shard F} {id : Nat} {data₁ data₂ : List UInt8}
    {inputs₁ inputs₂ : List (NetInput F)} {s₁ s₂ : Net F}
    (hfirst : Run Net.step (Net.SignsOnly id data₁) (.start shard) inputs₁ s₁)
    (hdone : ∀ c ∈ shard.coordinators, ∃ signature,
      (c, id, F.messageHash data₁, signature) ∈ s₁.outputs)
    (hsecond : Run Net.step (Net.SignsOnly id data₂) s₁ inputs₂ s₂) :
    (∃ m signature, (m, id, F.messageHash data₂, signature) ∈ s₂.outputs) ↔
      F.messageHash data₁ = F.messageHash data₂ := by
  have h := Net.run_first hfirst
  have hnone : ∀ m, (s₁.session id m).coordinator = none := by
    intro m
    by_cases hm : m ∈ shard.coordinators
    · obtain ⟨signature, hmem⟩ := hdone m hm
      exact (h.outputs m _ signature hmem).2
    · exact h.signer m hm
  have hsame := Net.run_second hnone hsecond
  constructor
  · rintro ⟨m, signature, hmem⟩
    exact (h.outputs m _ signature ((hsame ..).mp hmem)).1.symm
  · intro heq
    obtain ⟨c, hc⟩ := List.exists_mem_of_ne_nil _ shard.coordinators_ne_nil
    obtain ⟨signature, hmem⟩ := hdone c hc
    exact ⟨c, signature, heq ▸ (hsame ..).mpr hmem⟩

/-- Two members, both needed. -/
def toyShard : Shard toyFrost where
  members := [1, 2]
  threshold := 2
  keyPackage m := m
  publicKeyPackage := ()
  sorted := List.pairwise_pair.mpr (Nat.lt_succ_self 1)
  pos := by decide
  le := by decide
  size := by decide

/-- Both sign `[7]` under id 0, until the coordinator has its signature. -/
def firstInputs : List (NetInput toyFrost) :=
  [.onSign 1 0 [7], .onSign 2 0 [7], .poll 2 [20], .deliver 0, .poll 1 [10, 11, 12], .deliver 0,
    .poll 2 [21], .poll 1 [11, 12, 13], .deliver 0, .poll 1 [13]]

/-- Both sign `[8]` under the same id, and are polled. -/
def secondInputs : List (NetInput toyFrost) :=
  [.onSign 1 0 [8], .onSign 2 0 [8], .poll 1 [14], .poll 2 [22]]

/-- The shard after the first signature. -/
def signedNet : Net toyFrost := Run.endState Net.step (.start toyShard) firstInputs

theorem firstInputs_run :
    Run Net.step (Net.SignsOnly 0 [7]) (.start toyShard) firstInputs signedNet := by
  refine Run.to_endState ?_ (by decide)
  intro s input hinput
  simp only [firstInputs, List.mem_cons, List.not_mem_nil, or_false] at hinput
  rcases hinput with rfl | rfl | rfl | rfl | rfl | rfl | rfl | rfl | rfl | rfl <;>
    simp [Net.SignsOnly]

theorem secondInputs_run : Run Net.step (Net.SignsOnly 0 [8]) signedNet secondInputs
    (Run.endState Net.step signedNet secondInputs) := by
  refine Run.to_endState ?_ (by decide)
  intro s input hinput
  simp only [secondInputs, List.mem_cons, List.not_mem_nil, or_false] at hinput
  rcases hinput with rfl | rfl | rfl | rfl <;> simp [Net.SignsOnly]

theorem signedNet_outputs : signedNet.outputs = [(1, 0, Vector.replicate 32 7, [10, 20])] := by
  decide

theorem signedNet_done : ∀ c ∈ toyShard.coordinators, ∃ signature,
    (c, 0, toyFrost.messageHash [7], signature) ∈ signedNet.outputs := by
  intro c hc
  obtain rfl : c = 1 := List.mem_singleton.mp hc
  rw [signedNet_outputs]
  exact ⟨_, List.mem_singleton_self _⟩

theorem second_data_signed_iff_toy :
    (∃ m signature, (m, 0, toyFrost.messageHash [8], signature)
        ∈ (Run.endState Net.step signedNet secondInputs).outputs) ↔
      toyFrost.messageHash [7] = toyFrost.messageHash [8] :=
  second_data_signed_iff firstInputs_run signedNet_done secondInputs_run

/-- After both have called `on_sign` with `[8]`, nothing is in flight, nobody
has anything to do, and `[8]` is not signed. -/
theorem second_data_never_signed :
    Run Net.step (Net.SignsOnly 0 [7]) (.start toyShard) firstInputs signedNet ∧
      (∀ c ∈ toyShard.coordinators, ∃ signature,
        (c, 0, toyFrost.messageHash [7], signature) ∈ signedNet.outputs) ∧
      Run Net.step (Net.SignsOnly 0 [8]) signedNet secondInputs
        (Run.endState Net.step signedNet secondInputs) ∧
      (∀ m ∈ toyShard.members, NetInput.onSign m 0 [8] ∈ secondInputs) ∧
      (Run.endState Net.step signedNet secondInputs).Quiet toyShard ∧
      ¬ ∃ m signature, (m, 0, toyFrost.messageHash [8], signature)
        ∈ (Run.endState Net.step signedNet secondInputs).outputs := by
  have houtputs : (Run.endState Net.step signedNet secondInputs).outputs
      = [(1, 0, Vector.replicate 32 7, [10, 20])] := by
    decide
  have hidle : ∀ m ∈ toyShard.members,
      (((Run.endState Net.step signedNet secondInputs).tss m).nextAction [30]).any
        (fun e => e.1.isIdle) = true := by
    decide
  refine ⟨firstInputs_run, signedNet_done, secondInputs_run, ?_, ⟨by decide, ?_⟩, ?_⟩
  · intro m hm
    simp only [toyShard, List.mem_cons, List.not_mem_nil, or_false] at hm
    rcases hm with rfl | rfl <;> simp [secondInputs]
  · exact fun m hm => ⟨[30], Tss.nextAction_idle (hidle m hm)⟩
  · rw [houtputs]
    rintro ⟨m, signature, hmem⟩
    have hhash : toyFrost.messageHash [8] = Vector.replicate 32 7 :=
      congrArg (fun o => o.2.2.1) (List.mem_singleton.mp hmem)
    exact absurd hhash (by decide)

end Signing

end Timechain
